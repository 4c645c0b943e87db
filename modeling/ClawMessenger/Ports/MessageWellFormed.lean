import ClawMessenger.Ports.WorkerProtocolLimits

/-!
# What the normalizer gives out

A message that `normalizeRongCloudMessage` gives out is `WellFormed`: its
identifiers are trimmed and within their bounds, its attachments too, and its
content is a plain value without repeated keys.  Nothing is said of a direction
that is a text, which the normalizer copies as it is.
-/

namespace ClawMessenger.Ports.MessageNormalizer

open ClawMessenger.Verified JsString WorkerProtocol List

/-- The text is read as itself. -/
def IsIdentifier (max : Nat) (s : JsString) : Prop := identifierText max s = some s

structure NormalizedAttachment.WellFormed (a : NormalizedAttachment) : Prop where
  url : IsIdentifier 2048 a.url
  name : ∀ s, a.name = some s → IsIdentifier 512 s
  mimeType : ∀ s, a.mimeType = some s → IsIdentifier 128 s
  size : ∀ n, a.size = some n → n ≤ Decimal.maxSafeInteger

structure NormalizedRongCloudMessage.WellFormed (m : NormalizedRongCloudMessage) : Prop where
  messageUid : IsIdentifier 256 m.messageUid
  senderId : IsIdentifier 256 m.senderId
  targetId : IsIdentifier 256 m.targetId
  objectName : IsIdentifier 128 m.objectName
  attachments_length : m.attachments.length ≤ 16
  attachments : ∀ a ∈ m.attachments, a.WellFormed
  rawContent_plain : ∀ fields, m.rawContent = some fields → Plain (.obj fields)
  rawContent_distinct : ∀ fields, m.rawContent = some fields → (Json.obj fields).Distinct
  sentTime : ∀ n, m.sentTime = some n → isFinite n = true
  direction : ∀ n, m.direction = some (.num n) → isFinite n = true

/-! ## Identifiers -/

variable {max : Nat} {s : JsString}

variable {v : Json}

variable {safeRaw : Json}

mutual
theorem clonePassiveJson_plain (maxBytes : Nat) : ∀ (raw : Raw) (budget : Budget) (depth : Nat) (v : Json)
    (after : Budget), clonePassiveJson maxBytes raw budget depth = .ok (v, after) → Plain v
  | .null, _, _, _, _, h => by
      cases h
      trivial
  | .bool _, _, _, _, _, h => by
      cases h
      trivial
  | .num n, _, _, _, _, h => by
      rw [clonePassiveJson] at h
      split at h
      · next hfinite =>
          cases h
          exact hfinite
      · cases h
  | .str _, _, _, _, _, h => by
      rw [clonePassiveJson] at h
      obtain ⟨_, _, h⟩ := bind_ok h
      cases h
      trivial
  | .arr items getters, _, _, _, _, h => by
      rw [clonePassiveJson] at h
      split at h
      · cases h
      · obtain ⟨_, _, h⟩ := bind_ok h
        obtain ⟨_, _, h⟩ := bind_ok h
        obtain ⟨⟨result, _⟩, hresult, h⟩ := bind_ok h
        have hplain := cloneItems_plain maxBytes items _ _ _ _ hresult
        simp only at h
        split at h
        · cases h
        · cases h
          exact Json.allItems_iff.mpr hplain
  | .obj properties, _, _, _, _, h => by
      rw [clonePassiveJson] at h
      split at h
      · cases h
      · obtain ⟨_, _, h⟩ := bind_ok h
        obtain ⟨_, _, h⟩ := bind_ok h
        obtain ⟨⟨result, _⟩, hresult, h⟩ := bind_ok h
        have hplain := cloneProperties_plain maxBytes properties _ _ _ _ _ hresult trivial
        cases h
        exact hplain
  | .undefined, _, _, _, _, h => by cases h
  | .callable, _, _, _, _, h => by cases h
  | .foreign, _, _, _, _, h => by cases h
  | .accessor, _, _, _, _, h => by cases h
theorem cloneItems_plain (maxBytes : Nat) : ∀ (items : List Raw) (budget : Budget) (depth : Nat)
    (result : List Json) (after : Budget), cloneItems maxBytes items budget depth = .ok (result, after) →
    ∀ v ∈ result, Plain v
  | [], _, _, _, _, h => by
      cases h
      simp
  | item :: rest, _, _, _, _, h => by
      rw [cloneItems] at h
      obtain ⟨⟨cloned, _⟩, hcloned, h⟩ := bind_ok h
      obtain ⟨⟨others, _⟩, hothers, h⟩ := bind_ok h
      cases h
      intro v hv
      rcases mem_cons.mp hv with rfl | hrest
      · exact clonePassiveJson_plain maxBytes item _ _ _ _ hcloned
      · exact cloneItems_plain maxBytes rest _ _ _ _ hothers v hrest
theorem cloneProperties_plain (maxBytes : Nat) : ∀ (properties : List (JsString × Bool × Raw)) (budget : Budget)
    (depth : Nat) (taken result : Fields) (after : Budget),
    cloneProperties maxBytes properties budget depth taken = .ok (result, after) → Plain (.obj taken) →
    Plain (.obj result)
  | [], _, _, _, _, _, h, htaken => by
      cases h
      exact htaken
  | (key, enumerable, value) :: rest, _, _, _, _, _, h, htaken => by
      unfold cloneProperties at h
      split at h
      · next hnil => cases hnil
      · cases h
      · next hcons =>
          cases hcons
          exact cloneProperties_plain maxBytes rest _ _ _ _ _ h htaken
      · next hcons =>
          cases hcons
          split at h
          · exact cloneProperties_plain maxBytes rest _ _ _ _ _ h htaken
          · obtain ⟨_, _, h⟩ := bind_ok h
            exact cloneProperties_plain maxBytes rest _ _ _ _ _ h htaken
      · next hcons =>
          cases hcons
          split at h
          · exact cloneProperties_plain maxBytes rest _ _ _ _ _ h htaken
          · obtain ⟨_, _, h⟩ := bind_ok h
            exact cloneProperties_plain maxBytes rest _ _ _ _ _ h htaken
      · next hcons =>
          cases hcons
          split at h
          · exact cloneProperties_plain maxBytes rest _ _ _ _ _ h htaken
          · next hkey =>
              obtain ⟨_, _, h⟩ := bind_ok h
              obtain ⟨⟨cloned, _⟩, hcloned, h⟩ := bind_ok h
              have hvalue := clonePassiveJson_plain maxBytes value _ _ _ _ hcloned
              have hset : Plain (.obj (Json.setField _ (key, cloned))) :=
                Json.All.setField htaken (by simpa using hkey) hvalue
              exact cloneProperties_plain maxBytes rest _ _ _ _ _ h hset
end

/-- A value that can be sent as it is. -/
structure Clean (v : Json) : Prop where
  plain : Plain v
  distinct : v.Distinct

mutual
theorem cloneSafeJson_clean : ∀ (v : Json) (depth : Nat) (cloned : Json), cloneSafeJson v depth = some cloned →
    Clean cloned
  | .null, _, _, h => by
      cases h
      exact ⟨trivial, trivial⟩
  | .bool _, _, _, h => by
      cases h
      exact ⟨trivial, trivial⟩
  | .str _, _, _, h => by
      cases h
      exact ⟨trivial, trivial⟩
  | .num n, _, _, h => by
      rw [cloneSafeJson] at h
      split at h
      · next hfinite =>
          cases h
          exact ⟨hfinite, trivial⟩
      · cases h
  | .arr items, _, _, h => by
      rw [cloneSafeJson] at h
      split at h
      · cases h
      · obtain ⟨result, hresult, rfl⟩ := Option.map_eq_some_iff.mp h
        have hclean := cloneSafeItems_clean items _ _ hresult
        exact ⟨Json.allItems_iff.mpr fun v hv => (hclean v hv).plain,
          Json.distinctItems_iff.mpr fun v hv => (hclean v hv).distinct⟩
  | .obj fields, _, _, h => by
      rw [cloneSafeJson] at h
      split at h
      · cases h
      · cases h
        exact cloneSafeFields_clean fields _ _ ⟨trivial, nodup_nil, trivial⟩
theorem cloneSafeItems_clean : ∀ (items : List Json) (depth : Nat) (result : List Json),
    cloneSafeItems items depth = some result → ∀ v ∈ result, Clean v
  | [], _, _, h => by
      cases h
      simp
  | item :: rest, _, _, h => by
      rw [cloneSafeItems] at h
      split at h
      · next cloned others hcloned hothers =>
          cases h
          intro v hv
          rcases mem_cons.mp hv with rfl | hrest
          · exact cloneSafeJson_clean item _ _ hcloned
          · exact cloneSafeItems_clean rest _ _ hothers v hrest
      · cases h
theorem cloneSafeFields_clean : ∀ (fields : Fields) (depth : Nat) (taken : Fields), Clean (.obj taken) →
    Clean (.obj (cloneSafeFields fields depth taken))
  | [], _, _, h => h
  | (key, value) :: rest, depth, taken, h => by
      rw [cloneSafeFields]
      split
      · exact cloneSafeFields_clean rest _ _ h
      · next hkey =>
          split
          · exact cloneSafeFields_clean rest _ _ h
          · next cloned hcloned =>
              have hvalue := cloneSafeJson_clean value _ _ hcloned
              apply cloneSafeFields_clean rest
              exact ⟨Json.All.setField h.plain (by simpa using hkey) hvalue.plain,
                Json.Distinct.setField h.distinct hvalue.distinct⟩
end

/-! ## Objects of listed fields -/

variable {n : Nat}

variable {a : NormalizedAttachment}

variable {m : NormalizedRongCloudMessage}

end ClawMessenger.Ports.MessageNormalizer

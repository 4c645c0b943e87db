import ClawMessenger.Verified.KeyText

/-!
# Conversation identities and their keys

Sessions, requests and deduplication entries are all filed under the JSON text
of an array of ids.  Such a text is itself a bounded id when its parts are
(`keyText_bounded`), and it determines its parts (`stringify_injective`), which
is what lets the store compare texts instead of tuples.
-/

namespace ClawMessenger.Ports.Conversation

open Verified Verified.JsString List
open Verified.Json (stringify)

/-! ## Schemas shared by the stores -/

/-- `z.string().min(1).max(maximum)` of a trimmed string without controls. -/
def identifier (maximum : Nat) (value : JsString) : Bool := boundedText value maximum

/-- `/^rt_[0-9a-f]{32}$/`. -/
def runtimeIdSchema (value : JsString) : Bool :=
  value.take 3 == js "rt_" && isHexOfLength 32 (value.drop 3)

/-- `z.number().int().nonnegative().safe()`. -/
def timestamp (value : Nat) : Bool := value ≤ Decimal.maxSafeInteger

/-! ## Identities -/

inductive ConversationType where
  | direct
  | group
  | chatroom
deriving DecidableEq, Repr

def ConversationType.code : ConversationType → Nat
  | direct => 1
  | group => 3
  | chatroom => 4

structure BindingIdentity where
  runtimeId : JsString
  nodeId : JsString

structure ConversationIdentity extends BindingIdentity where
  /-- `sessionScope === 'group'`. -/
  groupScope : Bool
  conversationType : ConversationType
  targetId : JsString
  senderId : JsString

def bindingKey (identity : BindingIdentity) : JsString :=
  stringify (.arr [.str identity.runtimeId, .str identity.nodeId])

def interactiveSessionKey (runtimeId nodeId conversationType targetId : JsString) : JsString :=
  stringify (.arr [.str runtimeId, .str nodeId, .str conversationType, .str targetId])

def conversationKey (identity : ConversationIdentity) : JsString :=
  if identity.groupScope ∧ identity.conversationType ≠ .direct then
    interactiveSessionKey identity.runtimeId identity.nodeId
      (if identity.conversationType = .group then js "group" else js "chatroom") identity.targetId
  else
    stringify (.arr [.str identity.runtimeId, .str identity.nodeId,
      Json.ofNat identity.conversationType.code, .str identity.targetId, .str identity.senderId])

def validIdentity (identity : ConversationIdentity) : Bool :=
  runtimeIdSchema identity.runtimeId && identifier 137 identity.nodeId
    && identifier 256 identity.targetId && identifier 256 identity.senderId

/-! ## Key texts are ids -/

variable {value : JsString}

theorem identifier_spec {maximum : Nat} (h : identifier maximum value = true) :
    value.length ≤ maximum ∧ hasControl value = false := by
  simp only [identifier, boundedText, Bool.and_eq_true, decide_eq_true_eq, Bool.not_eq_true'] at h
  exact ⟨h.1.1.2, h.2⟩

theorem isLowerHex_printable {u : UInt16} (h : isLowerHex u = true) :
    0x20 ≤ u.toNat ∧ u.toNat < 0x7F := by
  simp only [isLowerHex, Bool.or_eq_true, Bool.and_eq_true, decide_eq_true_eq] at h
  omega

theorem runtimeIdSchema_spec (h : runtimeIdSchema value = true) :
    value.length ≤ 35 ∧ hasControl value = false := by
  simp only [runtimeIdSchema, isHexOfLength, Bool.and_eq_true, beq_iff_eq, all_eq_true] at h
  obtain ⟨hhead, hlen, hhex⟩ := h
  have hsplit : value = js "rt_" ++ value.drop 3 := by
    rw [← hhead, take_append_drop]
  have hprintable : Json.Printable value := by
    intro u hu
    rw [hsplit] at hu
    rcases mem_append.mp hu with hu | hu
    · have hword : Json.Printable (js "rt_") := by decide
      exact hword u hu
    · exact isLowerHex_printable (hhex u hu)
  refine ⟨?_, hprintable.hasControl⟩
  rw [hsplit, length_append, hlen]
  decide

theorem interactiveSessionKey_bounded {runtimeId nodeId conversationType targetId : JsString}
    (hruntime : runtimeIdSchema runtimeId = true) (hnode : identifier 137 nodeId = true)
    (htype : identifier 10 conversationType = true) (htarget : identifier 256 targetId = true) :
    identifier 16384
      (interactiveSessionKey runtimeId nodeId conversationType targetId) = true := by
  have hr := runtimeIdSchema_spec hruntime
  have hn := identifier_spec hnode
  have hc := identifier_spec htype
  have ht := identifier_spec htarget
  apply Json.keyText_bounded
  · simp [Json.KeyItem, hr.2, hn.2, hc.2, ht.2]
  · simp only [map_cons, map_nil, sum_cons, sum_nil, Json.itemUnits]
    omega

variable {identity : ConversationIdentity}

theorem validIdentity_spec (h : validIdentity identity = true) :
    runtimeIdSchema identity.runtimeId = true ∧ identifier 137 identity.nodeId = true ∧
      identifier 256 identity.targetId = true ∧ identifier 256 identity.senderId = true := by
  simp only [validIdentity, Bool.and_eq_true] at h
  exact ⟨h.1.1.1, h.1.1.2, h.1.2, h.2⟩

theorem bindingKey_bounded (h : validIdentity identity = true) :
    identifier 8192 (bindingKey identity.toBindingIdentity) = true := by
  obtain ⟨hruntime, hnode, _, _⟩ := validIdentity_spec h
  have hr := runtimeIdSchema_spec hruntime
  have hn := identifier_spec hnode
  apply Json.keyText_bounded
  · simp [Json.KeyItem, hr.2, hn.2]
  · simp only [map_cons, map_nil, sum_cons, sum_nil, Json.itemUnits]
    omega

theorem code_printable (conversationType : ConversationType) :
    Json.Printable (Decimal.ofNat conversationType.code).text ∧
      (Decimal.ofNat conversationType.code).text.length = 1 := by
  cases conversationType <;> decide

theorem conversationKey_bounded (h : validIdentity identity = true) :
    identifier 16384 (conversationKey identity) = true := by
  obtain ⟨hruntime, hnode, htarget, hsender⟩ := validIdentity_spec h
  unfold conversationKey
  by_cases hscope : identity.groupScope = true ∧ identity.conversationType ≠ .direct
  · rw [if_pos hscope]
    refine interactiveSessionKey_bounded hruntime hnode ?_ htarget
    by_cases hgroup : identity.conversationType = .group
    · rw [if_pos hgroup]
      decide
    · rw [if_neg hgroup]
      decide
  · rw [if_neg hscope]
    have hr := runtimeIdSchema_spec hruntime
    have hn := identifier_spec hnode
    have ht := identifier_spec htarget
    have hs := identifier_spec hsender
    obtain ⟨hcode, hone⟩ := code_printable identity.conversationType
    apply Json.keyText_bounded
    · simp [Json.KeyItem, Json.ofNat, hr.2, hn.2, ht.2, hs.2, hcode]
    · simp only [map_cons, map_nil, sum_cons, sum_nil, Json.itemUnits,
        Json.ofNat]
      omega

/-- Keys of interactive sessions determine their parts. -/
theorem interactiveSessionKey_injective {r n c t r' n' c' t' : JsString}
    (h : interactiveSessionKey r n c t = interactiveSessionKey r' n' c' t') :
    r = r' ∧ n = n' ∧ c = c' ∧ t = t' := by
  have hdistinct : ∀ a b c d : JsString,
      (Json.arr [.str a, .str b, .str c, .str d]).Distinct := fun _ _ _ _ =>
    ⟨trivial, trivial, trivial, trivial, trivial⟩
  have heq := Json.stringify_injective (hdistinct r n c t) (hdistinct r' n' c' t') h
  simpa using heq

theorem conversationKey_shape (identity : ConversationIdentity) :
    ∃ rest, conversationKey identity =
        stringify (.arr (.str identity.runtimeId :: .str identity.nodeId :: rest)) ∧
      (Json.arr (.str identity.runtimeId :: .str identity.nodeId :: rest)).Distinct := by
  unfold conversationKey interactiveSessionKey
  by_cases hscope : identity.groupScope = true ∧ identity.conversationType ≠ .direct
  · rw [if_pos hscope]
    exact ⟨_, rfl, trivial, trivial, trivial, trivial, trivial⟩
  · rw [if_neg hscope]
    exact ⟨_, rfl, trivial, trivial, trivial, trivial, trivial, trivial⟩

variable {identity' : ConversationIdentity}

/-- The key of a conversation determines its binding. -/
theorem conversationKey_binding (h : conversationKey identity = conversationKey identity') :
    identity.toBindingIdentity = identity'.toBindingIdentity := by
  obtain ⟨rest, hkey, hdistinct⟩ := conversationKey_shape identity
  obtain ⟨rest', hkey', hdistinct'⟩ := conversationKey_shape identity'
  rw [hkey, hkey'] at h
  have heq := Json.stringify_injective hdistinct hdistinct' h
  simp only [Json.arr.injEq, cons.injEq, Json.str.injEq] at heq
  obtain ⟨hruntime, hnode, _⟩ := heq
  cases hi : identity.toBindingIdentity
  cases hi' : identity'.toBindingIdentity
  rw [hi, hi'] at hruntime hnode
  rw [BindingIdentity.mk.injEq]
  exact ⟨hruntime, hnode⟩

/-- The key of a conversation determines its runtime. -/
theorem conversationKey_runtimeId (h : conversationKey identity = conversationKey identity') :
    identity.runtimeId = identity'.runtimeId := by
  rw [conversationKey_binding h]

end ClawMessenger.Ports.Conversation

import ClawMessenger.Verified.Halving
import ClawMessenger.Verified.JsonCuts

/-!
# The output a router keeps of a task

The router collects the text deltas of a task in one string with a counter of its UTF-8
bytes.  `utf8Prefix` cuts what no longer fits: it halves for the longest beginning within the
bytes left, measuring beginnings that may end inside a surrogate pair, and gives back the
high surrogate where the cut is inside one.  A cut delta is followed by a notice, and nothing
is collected after it.

`collected_bounded` says what is collected, for both appenders: the counter is the length in
bytes and stays within the limit, and the output is every delta or, once truncated, a proper
beginning of the deltas with the notice after it.
-/

namespace ClawMessenger.Ports.RouterOutput

open Verified Verified.JsString List

/-! ## Cutting a text -/

/-- `Buffer.byteLength(value.slice(0, middle), 'utf8') <= maximumBytes`. -/
def fits (value : JsString) (maximumBytes : Int) (middle : Nat) : Bool :=
  (byteLength (value.take middle) : Int) ≤ maximumBytes

def utf8Prefix (value : JsString) (maximumBytes : Int) : JsString :=
  if maximumBytes ≤ 0 then []
  else if (byteLength value : Int) ≤ maximumBytes then value
  else
    let low := Halving.last (fits value maximumBytes) 0 value.length
    if 0 < low ∧ (value[low - 1]?).any isHighSurrogate then value.take (low - 1) else value.take low

/-- Whatever the text, the cut keeps within the bytes. -/
theorem byteLength_utf8Prefix (s : JsString) (n : Nat) : byteLength (utf8Prefix s n) ≤ n := by
  unfold utf8Prefix
  split
  · exact Nat.zero_le _
  · split
    · omega
    · have hfits : fits s n (Halving.last (fits s n) 0 s.length) = true := by
        apply Halving.last_ok
        rw [fits, decide_eq_true_eq, take_zero, byteLength_nil]
        omega
      rw [fits, decide_eq_true_eq] at hfits
      dsimp only
      split
      · have hle := byteLength_take_le s (Nat.sub_le (Halving.last (fits s n) 0 s.length) 1)
        omega
      · omega

/-- The cut `k` is the longest one of at most `n` bytes that is not inside a pair; below zero
there is none, and nothing is kept. -/
structure LongestCut (s : JsString) (n : Int) (k : Nat) : Prop where
  le_length : k ≤ s.length
  whole : insidePair s k = false
  within : (byteLength (s.take k) : Int) ≤ max 0 n
  longest : ∀ j, j ≤ s.length → insidePair s j = false → (byteLength (s.take j) : Int) ≤ n → j ≤ k

variable {s : JsString}

theorem fits_of_le {n : Int} {i j : Nat} (h : i ≤ j) (hj : fits s n j = true) :
    fits s n i = true := by
  have hbytes := byteLength_take_le s h
  simp only [fits, decide_eq_true_eq] at hj ⊢
  omega

theorem byteLength_take_one (h : 0 < s.length) : 0 < byteLength (s.take 1) := by
  cases s with
  | nil => cases h
  | cons u rest =>
    rw [take_succ_cons, take_zero, byteLength_eq_sum]
    exact Nat.add_pos_left (pointBytes_pos u.toNat) _

theorem insidePair_length (s : JsString) : insidePair s s.length = false := by
  rw [insidePair, Bool.and_eq_false_iff, decide_eq_false_iff_not]
  exact .inl fun h => Nat.lt_irrefl _ h.2

theorem insidePair_of_high {k : Nat} (hk : 0 < k) (hlt : k < s.length) :
    insidePair s k = (s[k - 1]?).any isHighSurrogate := by
  rw [insidePair, decide_eq_true ⟨hk, hlt⟩, Bool.true_and]

/-- Where the whole text does not fit, the halving ends at the last cut that does, and a cut
inside a pair is one too long. -/
theorem longestCut_of_halving (hs : wellFormed s = true) {n : Int} (hn : 0 < n)
    (hlong : ¬ (byteLength s : Int) ≤ n) :
    ∃ k, utf8Prefix s n = s.take k ∧ LongestCut s n k := by
  have hdown : ∀ i j, i ≤ j → fits s n j = true → fits s n i = true := fun i j h hj => fits_of_le h hj
  have hend : ∀ j, s.length ≤ j → fits s n j = false := by
    intro j hj
    rw [fits, decide_eq_false_iff_not, take_of_length_le hj]
    exact hlong
  have hwindow : Halving.Window (fits s n) 0 s.length := by
    refine ⟨Nat.zero_le _, ?_, fun j hj => hend j (Nat.le_of_lt hj)⟩
    rw [fits, decide_eq_true_eq, take_zero, byteLength_nil]
    omega
  obtain ⟨hfits, hafter⟩ := hwindow.last_spec hdown
  have hlow : Halving.last (fits s n) 0 s.length < s.length := by
    by_contra hge
    rw [hend _ (Nat.le_of_not_lt hge)] at hfits
    cases hfits
  unfold utf8Prefix
  rw [if_neg (by omega), if_neg hlong]
  generalize Halving.last (fits s n) 0 s.length = low at hfits hafter hlow
  have hlater : ∀ j, (byteLength (s.take j) : Int) ≤ n → j ≤ low := by
    intro j hj
    by_contra hgt
    have hno := hafter j (Nat.lt_of_not_le hgt)
    rw [fits, decide_eq_false_iff_not] at hno
    exact hno hj
  rw [fits, decide_eq_true_eq] at hfits
  by_cases hinside : 0 < low ∧ (s[low - 1]?).any isHighSurrogate = true
  · rw [if_pos hinside]
    have hin : insidePair s low = true := by
      rw [insidePair_of_high hinside.1 hlow]
      exact hinside.2
    have hbytes := byteLength_take_le s (Nat.sub_le low 1)
    refine ⟨low - 1, rfl, by omega, (insidePair_apart hs hin).1, by omega, ?_⟩
    intro j _ hwhole hj
    have hle := hlater j hj
    have hne : j ≠ low := by
      intro heq
      rw [heq, hin] at hwhole
      cases hwhole
    omega
  · rw [if_neg hinside]
    have hout : insidePair s low = false := by
      by_cases hpos : 0 < low
      · rw [insidePair_of_high hpos hlow, Bool.eq_false_iff]
        exact fun hhigh => hinside ⟨hpos, hhigh⟩
      · have hzero : low = 0 := by omega
        rw [hzero]
        exact insidePair_zero s
    exact ⟨low, rfl, by omega, hout, by omega, fun j _ _ hj => hlater j hj⟩

/-- `utf8Prefix` cuts a well-formed text at the longest place within the bytes that is not
inside a pair. -/
theorem utf8Prefix_cut (hs : wellFormed s = true) (n : Int) :
    ∃ k, utf8Prefix s n = s.take k ∧ LongestCut s n k := by
  by_cases hn : n ≤ 0
  · have hnil : utf8Prefix s n = s.take 0 := by
      rw [utf8Prefix, if_pos hn, take_zero]
    refine ⟨0, hnil, Nat.zero_le _, insidePair_zero s, ?_, ?_⟩
    · rw [take_zero, byteLength_nil]
      omega
    · intro j hlength _ hj
      by_contra hpos
      have hfirst := byteLength_take_le s (Nat.succ_le_of_lt (Nat.lt_of_not_le hpos))
      have hsome : 0 < byteLength (s.take 1) := byteLength_take_one (by omega)
      rw [Nat.succ_eq_add_one, Nat.zero_add] at hfirst
      omega
  · by_cases hshort : (byteLength s : Int) ≤ n
    · have hall : utf8Prefix s n = s.take s.length := by
        rw [utf8Prefix, if_neg hn, if_pos hshort, take_length]
      refine ⟨s.length, hall, le_rfl, insidePair_length s, ?_, fun j hj _ _ => hj⟩
      rw [take_length]
      omega
    · exact longestCut_of_halving hs (by omega) hshort

/-! ## Collecting deltas -/

def OUTPUT_TRUNCATED_TEXT : JsString := js "[output_truncated]"

def MAX_OUTPUT_BYTES : Nat := 1024 * 1024

def MAX_OUTPUT_CONTENT_BYTES : Nat := MAX_OUTPUT_BYTES - byteLength OUTPUT_TRUNCATED_TEXT

/-- The members of a task that the appenders write; one of them calls the first two
`rawOutput` and `rawOutputBytes`. -/
structure Active where
  output : JsString := []
  outputBytes : Nat := 0
  outputTruncated : Bool := false

/-- What both appenders do, with `maximum` bytes for the deltas. -/
def appendWithin (maximum : Nat) (active : Active) (value : JsString) : Active :=
  if value.length = 0 ∨ active.outputTruncated = true then active
  else
    let accepted := utf8Prefix value (max 0 ((maximum : Int) - active.outputBytes))
    let output := active.output ++ accepted
    let outputBytes := active.outputBytes + byteLength accepted
    if accepted.length ≠ value.length then
      ⟨output ++ OUTPUT_TRUNCATED_TEXT, outputBytes + byteLength OUTPUT_TRUNCATED_TEXT, true⟩
    else ⟨output, outputBytes, active.outputTruncated⟩

def appendOutput : Active → JsString → Active := appendWithin MAX_OUTPUT_CONTENT_BYTES

def appendDiscussionOutput : Active → JsString → Active :=
  appendWithin (100000 - byteLength OUTPUT_TRUNCATED_TEXT)

/-- What is collected of `deltas` with `maximum` bytes for them. -/
structure Collected (maximum : Nat) (deltas : List JsString) (active : Active) : Prop where
  counted : active.outputBytes = byteLength active.output
  bounded : active.outputBytes ≤ maximum + byteLength OUTPUT_TRUNCATED_TEXT
  kept : active.outputTruncated = false ∧ active.output = deltas.flatten ∨
    active.outputTruncated = true ∧ ∃ kept, kept <+: deltas.flatten ∧ kept ≠ deltas.flatten ∧
      active.output = kept ++ OUTPUT_TRUNCATED_TEXT

variable {active : Active}

theorem appendWithin_truncated (maximum : Nat) (h : active.outputTruncated = true)
    (value : JsString) : appendWithin maximum active value = active := by
  rw [appendWithin, if_pos (.inr h)]

section Append

variable {maximum : Nat} {deltas : List JsString} {active : Active} {value : JsString}

/-- A truncated output stays what it is, one delta more being dropped. -/
theorem Collected.append_truncated (h : Collected maximum deltas active) (htruncated : active.outputTruncated = true) :
    Collected maximum (deltas ++ [value]) active where
  counted := h.counted
  bounded := h.bounded
  kept := by
    cases h.kept with
    | inl hopen =>
      rw [hopen.1] at htruncated
      cases htruncated
    | inr hclosed =>
      obtain ⟨_, kept, ⟨rest, hrest⟩, hne, houtput⟩ := hclosed
      refine .inr ⟨htruncated, kept, ?_, ?_, houtput⟩
      · rw [flatten_append, ← hrest, append_assoc]
        exact prefix_append _ _
      · intro heq
        rw [flatten_append, ← hrest, append_assoc] at heq
        have hnil := append_right_eq_self.mp heq.symm
        rw [append_eq_nil_iff.mp hnil |>.1, append_nil] at hrest
        exact hne hrest

/-- One delta: what fits of it is added, and the notice where it does not fit whole. -/
theorem Collected.append_open (h : Collected maximum deltas active) (hopen : active.outputTruncated = false)
    (hlimit : active.outputBytes ≤ maximum) (houtput : wellFormed active.output = true)
    (hvalue : wellFormed value = true) (hlength : value.length ≠ 0) :
    Collected maximum (deltas ++ [value]) (appendWithin maximum active value) ∧
      ((appendWithin maximum active value).outputTruncated = false →
        (appendWithin maximum active value).outputBytes ≤ maximum) := by
  have hsame : active.output = deltas.flatten := by
    cases h.kept with
    | inl hkept => exact hkept.2
    | inr hclosed =>
      rw [hclosed.1] at hopen
      cases hopen
  have hclosed := closed_of_wellFormed houtput
  obtain ⟨k, hcut, hlongest⟩ := utf8Prefix_cut hvalue (max 0 ((maximum : Int) - active.outputBytes))
  have hbytes := hlongest.within
  have hcutClosed := closed_take hvalue hlongest.whole
  have hadd : byteLength (active.output ++ value.take k) = active.outputBytes + byteLength (value.take k) := by
    rw [byteLength_append _ _ hclosed, h.counted]
  have hflatten : (deltas ++ [value]).flatten = active.output ++ value := by
    rw [flatten_append, hsame, flatten_singleton]
  have hdeltas : active.output ++ value.take k <+: (deltas ++ [value]).flatten := by
    rw [hflatten]
    exact (prefix_append_right_inj _).mpr ( take_prefix k value)
  rw [appendWithin, if_neg (by rw [hopen]; simp [hlength]), hcut]
  by_cases hall : (value.take k).length ≠ value.length
  · rw [if_pos hall]
    refine ⟨⟨?_, ?_, .inr ⟨rfl, _, hdeltas, ?_, rfl⟩⟩, fun hfalse => by cases hfalse⟩
    · show _ = byteLength _
      rw [byteLength_append _ _ (hclosed.append hcutClosed), hadd]
    · show active.outputBytes + byteLength (value.take k) + byteLength OUTPUT_TRUNCATED_TEXT ≤ _
      omega
    · intro heq
      rw [hflatten, append_cancel_left_eq] at heq
      exact hall (congrArg length heq)
  · rw [if_neg hall]
    have hwhole : value.take k = value := ( take_prefix k value).eq_of_length (not_not.mp hall)
    rw [hwhole] at hadd hbytes ⊢
    refine ⟨⟨hadd.symm, ?_, .inl ⟨hopen, hflatten.symm⟩⟩, fun _ => ?_⟩
    · show active.outputBytes + byteLength value ≤ _
      omega
    · show active.outputBytes + byteLength value ≤ _
      omega

end Append

variable {deltas : List JsString}

theorem wellFormed_flatten (h : ∀ d ∈ deltas, wellFormed d = true) :
    wellFormed deltas.flatten = true := by
  induction deltas with
  | nil => rfl
  | cons d rest ih =>
    have hd := h d mem_cons_self
    have hrest := ih fun x hx => h x (mem_cons_of_mem d hx)
    rw [flatten_cons, wellFormed_append _ _ (closed_of_wellFormed hd), hd, hrest]
    rfl

/-- Any deltas: the output is collected, and an open one leaves the notice its room. -/
theorem collected_foldl (maximum : Nat) (hdeltas : ∀ d ∈ deltas, wellFormed d = true) :
    Collected maximum deltas (deltas.foldl (appendWithin maximum) {}) ∧
      ((deltas.foldl (appendWithin maximum) {}).outputTruncated = false →
        (deltas.foldl (appendWithin maximum) {}).outputBytes ≤ maximum) := by
  induction deltas using reverseRecOn with
  | nil => exact ⟨⟨rfl, Nat.zero_le _, .inl ⟨rfl, rfl⟩⟩, fun _ => Nat.zero_le _⟩
  | append_singleton deltas value ih =>
    obtain ⟨hcollected, hroom⟩ := ih fun d hd => hdeltas d (mem_append_left _ hd)
    have hvalue := hdeltas value (mem_append_right _ (mem_singleton_self value))
    rw [foldl_append, foldl_cons, foldl_nil]
    generalize deltas.foldl (appendWithin maximum) {} = active at hcollected hroom
    by_cases htruncated : active.outputTruncated = true
    · rw [appendWithin_truncated maximum htruncated]
      exact ⟨hcollected.append_truncated htruncated, hroom⟩
    · have hopen := Bool.eq_false_iff.mpr htruncated
      by_cases hlength : value.length = 0
      · have hnil : value = [] := length_eq_zero_iff.mp hlength
        rw [appendWithin, if_pos (.inl hlength)]
        have hflatten : (deltas ++ [value]).flatten = deltas.flatten := by
          rw [hnil, flatten_append, flatten_singleton, append_nil]
        refine ⟨⟨hcollected.counted, hcollected.bounded, ?_⟩, hroom⟩
        rw [hflatten]
        exact hcollected.kept
      · apply hcollected.append_open hopen (hroom hopen) _ hvalue hlength
        cases hcollected.kept with
        | inl hkept =>
          rw [hkept.2]
          exact wellFormed_flatten fun d hd => hdeltas d (mem_append_left _ hd)
        | inr hclosed => exact absurd hclosed.1 htruncated

theorem foldl_truncated (maximum : Nat) (h : active.outputTruncated = true)
    (later : List JsString) :
    later.foldl (appendWithin maximum) active = active := by
  induction later with
  | nil => rfl
  | cons value rest ih => rw [foldl_cons, appendWithin_truncated maximum h, ih]

/-- What an appender with `limit` bytes makes of `deltas`: they are collected within the limit,
and once truncated the output is what it stays. -/
structure Bounded (append : Active → JsString → Active) (limit : Nat) (deltas : List JsString) : Prop where
  counted : (deltas.foldl append {}).outputBytes = byteLength (deltas.foldl append {}).output
  within : (deltas.foldl append {}).outputBytes ≤ limit
  kept : (deltas.foldl append {}).outputTruncated = false ∧ (deltas.foldl append {}).output = deltas.flatten ∨
    (deltas.foldl append {}).outputTruncated = true ∧ ∃ kept, kept <+: deltas.flatten ∧ kept ≠ deltas.flatten ∧
      (deltas.foldl append {}).output = kept ++ OUTPUT_TRUNCATED_TEXT
  final : (deltas.foldl append {}).outputTruncated = true →
    ∀ later, (deltas ++ later).foldl append {} = deltas.foldl append {}

theorem bounded_of_collected {maximum limit : Nat}
    (hlimit : maximum + byteLength OUTPUT_TRUNCATED_TEXT = limit)
    (hdeltas : ∀ d ∈ deltas, wellFormed d = true) :
    Bounded (appendWithin maximum) limit deltas := by
  have hcollected := (collected_foldl maximum hdeltas).1
  refine ⟨hcollected.counted, hlimit ▸ hcollected.bounded, hcollected.kept, ?_⟩
  intro htruncated later
  rw [foldl_append]
  exact foldl_truncated maximum htruncated later

/-- A well-formed text is cut at its longest place within the bytes, and both appenders keep
well-formed deltas within their limits. -/
theorem collected_bounded {s : JsString} (hs : wellFormed s = true) (n : Int) {deltas : List JsString}
    (hdeltas : ∀ d ∈ deltas, wellFormed d = true) :
    (∃ k, utf8Prefix s n = s.take k ∧ LongestCut s n k) ∧ Bounded appendOutput MAX_OUTPUT_BYTES deltas ∧
      Bounded appendDiscussionOutput 100000 deltas := by
  have htext : byteLength OUTPUT_TRUNCATED_TEXT = 18 := by decide
  refine ⟨utf8Prefix_cut hs n, bounded_of_collected ?_ hdeltas, bounded_of_collected ?_ hdeltas⟩
  · rw [MAX_OUTPUT_CONTENT_BYTES, htext, MAX_OUTPUT_BYTES]
  · rw [htext]

theorem collected_bounded_emoji :
    (∃ k, utf8Prefix (js "a😀") 4 = (js "a😀").take k ∧ LongestCut (js "a😀") 4 k) ∧
      Bounded appendOutput MAX_OUTPUT_BYTES [js "a", js "😀"] ∧
      Bounded appendDiscussionOutput 100000 [js "a", js "😀"] :=
  collected_bounded (by decide) 4 (by decide)

end ClawMessenger.Ports.RouterOutput

import ClawMessenger.Verified.Json
import ClawMessenger.Verified.TextSearch

/-!
# Card markers in a reply

A reply may carry `[CARD][{…}]` and `[COMMANDS][[…]]`.  `parse` walks over the
text: it shows what stands between markers, collects the markers that hold
valid JSON and replaces the others by a fixed text.  While a reply is still
arriving (`final = false`) it stops at anything that later text could change:
a partial opener at the end, JSON that is not closed, or a closing bracket of
the JSON with nothing after it.

Positions of the source are indices into the whole text.  Here each function
takes the text from its position on, so an index is relative to that position.

`parseStep` is one round of the loop.  `parseStep_extends` says what later text
can do to a round, and the loop lemma `parseLoop_append` follows from it by
induction on the text that is left: what was shown is never taken back.
-/

namespace ClawMessenger.Ports.ParseMarker

open Verified Verified.JsString Verified.TextSearch List

def CARD_MARKER_BYTE_LIMIT : Nat := 10 * 1024

def MAX_CARD_MARKERS : Nat := 16

def INVALID_CARD_MARKER_TEXT : JsString := js "[invalid card marker]"

inductive CardMarkerError where
  | invalid_marker
  | incomplete_marker
  | marker_too_large
  | too_many_markers

/-- What a parse returns. -/
structure CardMarkerParseResult where
  text : JsString
  cards : List Json
  commands : List Json
  errors : List CardMarkerError
deriving Inhabited

/-! ## Openers -/

inductive Tag where
  | CARD
  | COMMANDS
deriving DecidableEq, Repr

structure Opener where
  tag : Tag
  value : JsString
  root : UInt16
deriving DecidableEq, Repr

def openBrace : UInt16 := 0x7B

def closeBrace : UInt16 := 0x7D

def openBracket : UInt16 := 0x5B

def closeBracket : UInt16 := 0x5D

def quote : UInt16 := 0x22

def backslash : UInt16 := 0x5C

def openers : List Opener :=
  [⟨.CARD, js "[CARD][", openBrace⟩, ⟨.COMMANDS, js "[COMMANDS][", openBracket⟩]

def earliestOpener (text : JsString) : Option (Opener × Nat) :=
  earliest Opener.value openers text

def trailingOpenerPrefix (text : JsString) : Nat := heldBack Opener.value openers text

theorem openers_factorFree : FactorFree Opener.value openers := by
  intro item hitem other hother hfactor
  have hcases : ∀ item ∈ openers, ∀ other ∈ openers,
      (item.value.tails.any fun rest => decide (other.value <+: rest)) = true → other = item := by
    decide
  obtain ⟨before, after, heq⟩ := hfactor
  apply hcases other hother item hitem
  rw [any_eq_true]
  refine ⟨other.value.drop before.length, (mem_tails _ _).mpr (drop_suffix _ _), ?_⟩
  rw [← heq, append_assoc, drop_left, decide_eq_true_eq]
  exact prefix_append _ _

/-! ## The end of a JSON value -/

def matchingClose (value : UInt16) : UInt16 := if value = openBrace then closeBrace else closeBracket

structure ScanResult where
  stop : Nat
  complete : Bool
  oversized : Bool

/-- The local variables of `scanJson`; the stack has its top first. -/
structure Scan where
  stack : List UInt16
  inString : Bool
  escaped : Bool
  bytes : Nat
  oversized : Bool
  index : Nat

/-- One round of the scanning loop, on the units of one code point. -/
def Scan.read (scan : Scan) (character : JsString) : Scan ⊕ ScanResult :=
  let bytes := scan.bytes + byteLength character
  let oversized := scan.oversized || decide (CARD_MARKER_BYTE_LIMIT < bytes)
  let next := scan.index + character.length
  let scan : Scan := { scan with bytes, oversized }
  if scan.inString then
    if scan.escaped then
      .inl { scan with escaped := false, index := next }
    else if character = [backslash] then
      .inl { scan with escaped := true, index := next }
    else if character = [quote] then
      .inl { scan with inString := false, index := next }
    else
      .inl { scan with index := next }
  else if character = [quote] then
    .inl { scan with inString := true, index := next }
  else if character = [openBrace] then
    .inl { scan with
      stack := if scan.index = 0 then scan.stack else closeBrace :: scan.stack, index := next }
  else if character = [openBracket] then
    .inl { scan with
      stack := if scan.index = 0 then scan.stack else closeBracket :: scan.stack, index := next }
  else if character = [closeBrace] ∨ character = [closeBracket] then
    if scan.stack.head?.map (fun top => [top]) ≠ some character then
      .inr ⟨next, true, oversized⟩
    else if scan.stack.tail = [] then
      .inr ⟨next, true, oversized⟩
    else
      .inl { scan with stack := scan.stack.tail, index := next }
  else
    .inl { scan with index := next }

/-- The scanning loop: one code point a round. -/
def Scan.run (scan : Scan) : JsString → ScanResult
  | [] => ⟨scan.index, false, scan.oversized⟩
  | [u] =>
    match scan.read [u] with
    | .inl next => next.run []
    | .inr result => result
  | u :: v :: rest =>
    if isHighSurrogate u && isLowSurrogate v then
      match scan.read [u, v] with
      | .inl next => next.run rest
      | .inr result => result
    else
      match scan.read [u] with
      | .inl next => next.run (v :: rest)
      | .inr result => result

def scanJson (text : JsString) : ScanResult :=
  match text.head? with
  | none => ⟨0, false, false⟩
  | some first =>
    if first = openBrace ∨ first = openBracket then
      Scan.run ⟨[matchingClose first], false, false, 0, false, 0⟩ text
    else
      ⟨0, false, false⟩

section

variable {scan : Scan} {character : JsString} {result : ScanResult}
  (h : scan.read character = .inr result)
include h

/-- Only a closing bracket ends a scan. -/
theorem Scan.read_ends :
    character = [closeBrace] ∨ character = [closeBracket] := by
  by_contra hother
  rw [Scan.read] at h
  dsimp only at h
  rw [if_neg hother] at h
  split_ifs at h

theorem Scan.read_complete :
    result.complete = true ∧ result.stop = scan.index + character.length := by
  have hcloses := Scan.read_ends h
  rw [Scan.read] at h
  dsimp only at h
  split_ifs at h
  all_goals
    injection h with h
    rw [← h]
    exact ⟨rfl, rfl⟩

end

theorem Scan.read_index {scan next : Scan} {character : JsString}
    (h : scan.read character = .inl next) : next.index = scan.index + character.length := by
  rw [Scan.read] at h
  dsimp only at h
  split_ifs at h
  all_goals
    injection h with h
    rw [← h]

/-- A scan stops inside the text. -/
theorem Scan.run_stop_le (scan : Scan) (text : JsString) :
    (scan.run text).stop ≤ scan.index + text.length := by
  induction scan, text using Scan.run.induct with
  | case1 scan => exact le_rfl
  | case2 scan u next hread ih =>
    rw [Scan.run, hread]
    have hindex := Scan.read_index hread
    simp only [length_singleton, length_nil] at ih hindex ⊢
    omega
  | case3 scan u result hread =>
    rw [Scan.run, hread]
    exact le_of_eq (Scan.read_complete hread).2
  | case4 scan u v rest hpair next hread ih =>
    rw [Scan.run, if_pos hpair, hread]
    have hindex := Scan.read_index hread
    simp only [length_cons, length_nil] at ih hindex ⊢
    omega
  | case5 scan u v rest hpair result hread =>
    rw [Scan.run, if_pos hpair, hread]
    have hstop := (Scan.read_complete hread).2
    simp only [length_cons, length_nil] at hstop ⊢
    omega
  | case6 scan u v rest hpair next hread ih =>
    rw [Scan.run, if_neg hpair, hread]
    have hindex := Scan.read_index hread
    simp only [length_cons, length_nil] at ih hindex ⊢
    omega
  | case7 scan u v rest hpair result hread =>
    rw [Scan.run, if_neg hpair, hread]
    have hstop := (Scan.read_complete hread).2
    simp only [length_cons, length_nil] at hstop ⊢
    omega

/-- A scan that has come to its end is not changed by later text.  Units at the
end of `text` could still pair up with later ones, but a scan does not end on a
surrogate. -/
theorem Scan.run_append (scan : Scan) (text more : JsString)
    (h : (scan.run text).complete = true) : scan.run (text ++ more) = scan.run text := by
  induction scan, text using Scan.run.induct with
  | case1 scan => cases h
  | case2 scan u next hread ih =>
    rw [Scan.run, hread] at h
    cases h
  | case3 scan u result hread =>
    cases more with
    | nil => rfl
    | cons v rest =>
      have hlow : isHighSurrogate u = false := by
        rcases Scan.read_ends hread with hu | hu
        · rw [singleton_inj.mp hu]
          rfl
        · rw [singleton_inj.mp hu]
          rfl
      rw [singleton_append, Scan.run, Scan.run, hlow, Bool.false_and,
        if_neg Bool.false_ne_true, hread]
  | case4 scan u v rest hpair next hread ih =>
    rw [cons_append, cons_append, Scan.run, Scan.run, if_pos hpair, if_pos hpair, hread]
    rw [Scan.run, if_pos hpair, hread] at h
    exact ih h
  | case5 scan u v rest hpair result hread =>
    rw [cons_append, cons_append, Scan.run, Scan.run, if_pos hpair, if_pos hpair, hread]
  | case6 scan u v rest hpair next hread ih =>
    rw [cons_append, cons_append, Scan.run, Scan.run, if_neg hpair, if_neg hpair, hread]
    rw [Scan.run, if_neg hpair, hread] at h
    exact ih h
  | case7 scan u v rest hpair result hread =>
    rw [cons_append, cons_append, Scan.run, Scan.run, if_neg hpair, if_neg hpair, hread]

theorem scanJson_stop_le (text : JsString) : (scanJson text).stop ≤ text.length := by
  cases text with
  | nil => exact le_rfl
  | cons first rest =>
    rw [scanJson, head?_cons]
    dsimp only
    split
    · have hstop := Scan.run_stop_le
        ⟨[matchingClose first], false, false, 0, false, 0⟩ (first :: rest)
      simpa using hstop
    · exact Nat.zero_le _

theorem scanJson_append (text more : JsString) (h : (scanJson text).complete = true) :
    scanJson (text ++ more) = scanJson text := by
  cases text with
  | nil => cases h
  | cons first rest =>
    rw [scanJson, head?_cons] at h
    rw [scanJson, scanJson, cons_append, head?_cons, head?_cons]
    dsimp only at h ⊢
    by_cases hfirst : first = openBrace ∨ first = openBracket
    · rw [if_pos hfirst] at h
      rw [if_pos hfirst, if_pos hfirst]
      exact Scan.run_append _ (first :: rest) more h
    · rw [if_neg hfirst] at h
      cases h

/-! ## The parser -/

/-- The local variables of `parse` that grow as it goes. -/
structure Found extends CardMarkerParseResult where
  markerCount : Nat

def Found.none : Found := ⟨⟨[], [], [], []⟩, 0⟩

/-- `output += text`. -/
def Found.show (found : Found) (text : JsString) : Found :=
  { found with text := found.text ++ text }

/-- The invalid-marker text, with its error. -/
def Found.fail (found : Found) (error : CardMarkerError) : Found :=
  { found with text := found.text ++ INVALID_CARD_MARKER_TEXT, errors := found.errors ++ [error] }

/-- The value of a marker, if it is a valid one. -/
def markerValue? (opener : Opener) (json : JsString) (scan : ScanResult) : Option Json :=
  if json[scan.stop]? = some closeBracket ∧ json.head? = some opener.root ∧ !scan.oversized then
    (Json.parse (json.take scan.stop)).filter fun parsed =>
      match opener.tag, parsed with
      | .CARD, .obj _ => true
      | .COMMANDS, .arr _ => true
      | _, _ => false
  else
    Option.none

/-- A marker whose JSON is closed: collected, or replaced by the invalid text. -/
def Found.mark (found : Found) (opener : Opener) (json : JsString) (scan : ScanResult) : Found :=
  let found := { found with markerCount := found.markerCount + 1 }
  if MAX_CARD_MARKERS < found.markerCount then
    found.fail .too_many_markers
  else
    match markerValue? opener json scan with
    | Option.none => found.fail (if scan.oversized then .marker_too_large else .invalid_marker)
    | some parsed =>
      match opener.tag with
      | .CARD => { found with cards := found.cards ++ [parsed] }
      | .COMMANDS => { found with commands := found.commands ++ [parsed] }

/-- How one round of the loop ends. -/
inductive Progress where
  | stopped (found : Found)
  | advanced (found : Found) (rest : JsString)

/-- One round of the loop, on the text from the cursor on. -/
def parseStep (final : Bool) (found : Found) (text : JsString) : Progress :=
  match earliestOpener text with
  | Option.none =>
    let held := trailingOpenerPrefix text
    if held = 0 then
      .stopped (found.show text)
    else
      let found := found.show (text.take (text.length - held))
      .stopped (if final then found.fail .incomplete_marker else found)
  | some (opener, index) =>
    let found := found.show (text.take index)
    let json := text.drop (index + opener.value.length)
    if json = [] then
      .stopped (if final then found.fail .incomplete_marker else found)
    else
      let scan := scanJson json
      if !scan.complete then
        .stopped (if final then
          found.fail (if scan.oversized then .marker_too_large else .incomplete_marker) else found)
      else if !final && scan.stop == json.length then
        .stopped found
      else
        .advanced (found.mark opener json scan)
          (if json[scan.stop]? = some closeBracket then json.drop (scan.stop + 1) else [])

theorem openers_value_pos : ∀ opener ∈ openers, 0 < opener.value.length := by
  decide

/-- A round that goes on has used up some of the text. -/
theorem length_lt_of_advanced {final : Bool} {found next : Found} {text rest : JsString}
    (h : parseStep final found text = .advanced next rest) : rest.length < text.length := by
  rw [parseStep] at h
  cases hfound : earliestOpener text with
  | none =>
    rw [hfound] at h
    dsimp only at h
    split at h <;> cases h
  | some selected =>
    obtain ⟨opener, index⟩ := selected
    rw [hfound] at h
    dsimp only at h
    obtain ⟨hmem, hat, _⟩ := earliest_spec hfound
    have hpos := openers_value_pos opener hmem
    have hfit := indexOf?_add_length_le hat
    split at h
    · cases h
    · split at h
      · cases h
      · split at h
        · cases h
        · injection h with _ hrest
          rw [← hrest]
          split
          · rw [length_drop, length_drop]
            omega
          · rw [length_nil]
            omega

/-- The loop of `parse`, from the cursor on. -/
def parseLoop (final : Bool) (found : Found) (text : JsString) : Found :=
  if text = [] then
    found
  else
    match _h : parseStep final found text with
    | .stopped next => next
    | .advanced next rest => parseLoop final next rest
termination_by text.length
decreasing_by exact length_lt_of_advanced _h

def parse (text : JsString) (final : Bool) : CardMarkerParseResult :=
  (parseLoop final Found.none text).toCardMarkerParseResult

def parseCardMarkers (text : JsString) : CardMarkerParseResult := parse text true

def streamSafeContent (cumulativeText : JsString) : JsString := (parse cumulativeText false).text

/-- `CardMarkerStream`: the text received so far. -/
structure CardMarkerStream where
  buffer : JsString

namespace CardMarkerStream

def new : CardMarkerStream := ⟨[]⟩

def push (stream : CardMarkerStream) (chunk : JsString) :
    CardMarkerStream × CardMarkerParseResult :=
  let buffer := stream.buffer ++ chunk
  (⟨buffer⟩, parse buffer false)

def finish (stream : CardMarkerStream) : CardMarkerParseResult := parse stream.buffer true

end CardMarkerStream

/-! ## Results that grow -/

/-- Everything in `before` is still there, at the beginning of `later`. -/
structure Extends (before later : CardMarkerParseResult) : Prop where
  text : before.text <+: later.text
  cards : before.cards <+: later.cards
  commands : before.commands <+: later.commands
  errors : before.errors <+: later.errors

namespace Extends

theorem refl (result : CardMarkerParseResult) : Extends result result :=
  ⟨prefix_rfl, prefix_rfl, prefix_rfl, prefix_rfl⟩

theorem trans {first second third : CardMarkerParseResult} (h : Extends first second)
    (h' : Extends second third) : Extends first third :=
  ⟨h.text.trans h'.text, h.cards.trans h'.cards, h.commands.trans h'.commands,
    h.errors.trans h'.errors⟩

end Extends

theorem extends_show (found : Found) (text : JsString) :
    Extends found.toCardMarkerParseResult (found.show text).toCardMarkerParseResult :=
  ⟨prefix_append _ _, prefix_rfl, prefix_rfl, prefix_rfl⟩

theorem show_extends_show (found : Found) {text later : JsString} (h : text <+: later) :
    Extends (found.show text).toCardMarkerParseResult
      (found.show later).toCardMarkerParseResult :=
  ⟨prefix_append_right_inj _ |>.mpr h, prefix_rfl, prefix_rfl, prefix_rfl⟩

theorem extends_fail (found : Found) (error : CardMarkerError) :
    Extends found.toCardMarkerParseResult (found.fail error).toCardMarkerParseResult :=
  ⟨prefix_append _ _, prefix_rfl, prefix_rfl, prefix_append _ _⟩

theorem extends_fail_if (found : Found) (final : Bool) (error : CardMarkerError) :
    Extends found.toCardMarkerParseResult
      (if final then found.fail error else found).toCardMarkerParseResult := by
  cases final with
  | false => exact Extends.refl _
  | true => exact extends_fail found error

theorem extends_mark (found : Found) (opener : Opener) (json : JsString) (scan : ScanResult) :
    Extends found.toCardMarkerParseResult
      (found.mark opener json scan).toCardMarkerParseResult := by
  rw [Found.mark]
  dsimp only
  split
  · exact extends_fail { found with markerCount := found.markerCount + 1 } _
  · split
    · exact extends_fail { found with markerCount := found.markerCount + 1 } _
    · split
      · exact ⟨prefix_rfl, prefix_append _ _, prefix_rfl, prefix_rfl⟩
      · exact ⟨prefix_rfl, prefix_rfl, prefix_append _ _, prefix_rfl⟩

/-! ## One round, before and after more text -/

/-- How much of the text a round shows before it comes to a marker. -/
def shownLength (text : JsString) : Nat :=
  match earliestOpener text with
  | none => text.length - trailingOpenerPrefix text
  | some (_, index) => index

/-- What a round shows before a marker stays when more text follows. -/
theorem shown_append (text more : JsString) :
    text.take (shownLength text) <+: (text ++ more).take (shownLength (text ++ more)) := by
  have hle : shownLength text ≤ text.length ∧
      shownLength text ≤ shownLength (text ++ more) := by
    rw [shownLength, shownLength]
    cases hfound : earliestOpener text with
    | some selected =>
      have hfit := indexOf?_add_length_le (earliest_spec hfound).2.1
      have hstays : earliestOpener (text ++ more) = some selected :=
        earliest_append openers_factorFree hfound more
      rw [hstays]
      dsimp only
      omega
    | none =>
      have hheld : trailingOpenerPrefix (text ++ more) ≤
          trailingOpenerPrefix text + more.length := heldBack_append more
      cases hlater : earliestOpener (text ++ more) with
      | none =>
        dsimp only
        rw [length_append]
        omega
      | some selected =>
        have hstart : text.length - trailingOpenerPrefix text ≤ selected.2 :=
          le_of_earliest_append hfound hlater
        dsimp only
        omega
  have htake : (text ++ more).take (shownLength text) = text.take (shownLength text) :=
    take_append_of_le_length hle.1
  rw [← htake]
  exact take_prefix_take_left hle.2

/-- What a round has found when it ends. -/
def Progress.found : Progress → Found
  | .stopped found => found
  | .advanced found _ => found

theorem parseStep_extends (final : Bool) (found : Found) (text : JsString) :
    Extends (found.show (text.take (shownLength text))).toCardMarkerParseResult
      (parseStep final found text).found.toCardMarkerParseResult := by
  rw [parseStep, shownLength]
  cases hfound : earliestOpener text with
  | none =>
    dsimp only
    by_cases hheld : trailingOpenerPrefix text = 0
    · rw [if_pos hheld, hheld, Nat.sub_zero, take_length]
      exact Extends.refl _
    · rw [if_neg hheld]
      exact extends_fail_if _ final _
  | some selected =>
    dsimp only
    split
    · exact extends_fail_if _ final _
    · split
      · exact extends_fail_if _ final _
      · split
        · exact Extends.refl _
        · exact extends_mark _ _ _ _

/-- A round that stops while the text is still growing only shows what stands
before the marker. -/
theorem found_of_stopped {found next : Found} {text : JsString}
    (h : parseStep false found text = .stopped next) :
    next = found.show (text.take (shownLength text)) := by
  rw [parseStep] at h
  rw [shownLength]
  cases hfound : earliestOpener text with
  | none =>
    rw [hfound] at h
    dsimp only at h ⊢
    by_cases hheld : trailingOpenerPrefix text = 0
    · rw [if_pos hheld] at h
      injection h with h
      rw [← h, hheld, Nat.sub_zero, take_length]
    · rw [if_neg hheld] at h
      injection h with h
      rw [← h, if_neg Bool.false_ne_true]
  | some selected =>
    rw [hfound] at h
    dsimp only at h ⊢
    simp only [Bool.false_eq_true, if_false] at h
    split_ifs at h
    all_goals
      injection h with h
      rw [← h]

/-- A round that goes on while the text is still growing goes on in the same
way with more text: its marker is closed, and what is left has grown. -/
theorem advanced_append {found next : Found} {text rest : JsString}
    (h : parseStep false found text = .advanced next rest) (final : Bool) (more : JsString) :
    parseStep final found (text ++ more) = .advanced next (rest ++ more) ∨
      rest = [] ∧ parseStep final found (text ++ more) = .advanced next [] := by
  rw [parseStep] at h
  cases hfound : earliestOpener text with
  | none =>
    rw [hfound] at h
    dsimp only at h
    split at h <;> cases h
  | some selected =>
    obtain ⟨opener, index⟩ := selected
    have hfit := indexOf?_add_length_le (earliest_spec hfound).2.1
    have hstays : earliestOpener (text ++ more) = some (opener, index) :=
      earliest_append openers_factorFree hfound more
    have hshown : (text ++ more).take index = text.take index :=
      take_append_of_le_length (by omega)
    have hjson : (text ++ more).drop (index + opener.value.length) =
        text.drop (index + opener.value.length) ++ more :=
      drop_append_of_le_length hfit
    rw [hfound] at h
    rw [parseStep, hstays]
    dsimp only at h ⊢
    rw [hshown, hjson]
    generalize text.drop (index + opener.value.length) = json at h ⊢
    by_cases hempty : json = []
    · rw [if_pos hempty] at h
      cases h
    rw [if_neg hempty] at h
    rw [if_neg (by simp [hempty])]
    by_cases hcomplete : (scanJson json).complete = true
    · rw [if_neg (by simp [hcomplete])] at h
      rw [scanJson_append json more hcomplete, if_neg (by simp [hcomplete])]
      by_cases hend : (scanJson json).stop = json.length
      · rw [if_pos (by simp [hend])] at h
        cases h
      have hinside : (scanJson json).stop < json.length :=
        lt_of_le_of_ne (scanJson_stop_le json) hend
      rw [if_neg (by simp [hend])] at h
      rw [if_neg (by
        rw [length_append, Bool.and_eq_true, beq_iff_eq]
        omega)]
      injection h with hnext hrest
      have hunit : (json ++ more)[(scanJson json).stop]? = json[(scanJson json).stop]? :=
        getElem?_append_left hinside
      have hmark : (found.show (text.take index)).mark opener (json ++ more) (scanJson json) =
          (found.show (text.take index)).mark opener json (scanJson json) := by
        have hhead : (json ++ more).head? = json.head? := by
          rw [head?_append_of_ne_nil _ hempty]
        have hraw : (json ++ more).take (scanJson json).stop = json.take (scanJson json).stop :=
          take_append_of_le_length (le_of_lt hinside)
        rw [Found.mark, Found.mark, markerValue?, markerValue?, hunit, hhead, hraw]
      rw [hmark, hnext, hunit]
      by_cases hclosed : json[(scanJson json).stop]? = some closeBracket
      · rw [if_pos hclosed] at hrest ⊢
        left
        rw [drop_append_of_le_length hinside, hrest]
      · rw [if_neg hclosed] at hrest ⊢
        exact .inr ⟨hrest.symm, rfl⟩
    · rw [if_pos (by simp [hcomplete])] at h
      cases h

/-! ## The loop -/

@[simp] theorem parseLoop_nil (final : Bool) (found : Found) : parseLoop final found [] = found := by
  rw [parseLoop, if_pos rfl]

theorem parseLoop_of_stopped {final : Bool} {found next : Found} {text : JsString}
    (hne : text ≠ []) (h : parseStep final found text = .stopped next) :
    parseLoop final found text = next := by
  rw [parseLoop, if_neg hne]
  split
  · rename_i heq
    rw [h] at heq
    injection heq with heq
    exact heq.symm
  · rename_i heq
    rw [h] at heq
    cases heq

theorem parseLoop_of_advanced {final : Bool} {found next : Found} {text rest : JsString}
    (hne : text ≠ []) (h : parseStep final found text = .advanced next rest) :
    parseLoop final found text = parseLoop final next rest := by
  rw [parseLoop, if_neg hne]
  split
  · rename_i heq
    rw [h] at heq
    cases heq
  · rename_i heq
    rw [h] at heq
    injection heq with hnext hrest
    rw [hnext, hrest]

/-- The loop only adds to what it has found. -/
theorem extends_parseLoop (final : Bool) (found : Found) (text : JsString) :
    Extends found.toCardMarkerParseResult
      (parseLoop final found text).toCardMarkerParseResult := by
  induction hlength : text.length using Nat.strong_induction_on generalizing found text with
  | _ n ih =>
    by_cases hne : text = []
    · rw [hne, parseLoop_nil]
      exact Extends.refl _
    have hstep := (extends_show found _).trans (parseStep_extends final found text)
    cases h : parseStep final found text with
    | stopped next =>
      rw [parseLoop_of_stopped hne h]
      rw [h] at hstep
      exact hstep
    | advanced next rest =>
      rw [parseLoop_of_advanced hne h]
      rw [h] at hstep
      have hlt := length_lt_of_advanced h
      exact hstep.trans (ih rest.length (by omega) next rest rfl)

/-- A round's findings are among those of the loop. -/
theorem parseStep_extends_parseLoop (final : Bool) (found : Found) {text : JsString}
    (hne : text ≠ []) :
    Extends (parseStep final found text).found.toCardMarkerParseResult
      (parseLoop final found text).toCardMarkerParseResult := by
  cases h : parseStep final found text with
  | stopped next =>
    rw [parseLoop_of_stopped hne h]
    exact Extends.refl _
  | advanced next rest =>
    rw [parseLoop_of_advanced hne h]
    exact extends_parseLoop final next rest

/-- What the loop finds while the text is still growing is found again, first,
when more text has arrived. -/
theorem parseLoop_append (final : Bool) (found : Found) (text more : JsString) :
    Extends (parseLoop false found text).toCardMarkerParseResult
      (parseLoop final found (text ++ more)).toCardMarkerParseResult := by
  induction hlength : text.length using Nat.strong_induction_on generalizing found text with
  | _ n ih =>
    by_cases hne : text = []
    · rw [hne, parseLoop_nil]
      exact extends_parseLoop final found _
    have hne' : text ++ more ≠ [] := by simp [hne]
    cases h : parseStep false found text with
    | stopped next =>
      rw [parseLoop_of_stopped hne h, found_of_stopped h]
      have hshown := show_extends_show found (shown_append text more)
      have hround := parseStep_extends final found (text ++ more)
      exact (hshown.trans hround).trans (parseStep_extends_parseLoop final found hne')
    | advanced next rest =>
      rw [parseLoop_of_advanced hne h]
      have hlt := length_lt_of_advanced h
      rcases advanced_append h final more with hnext | ⟨hrest, hnext⟩
      · rw [parseLoop_of_advanced hne' hnext]
        exact ih rest.length (by omega) next rest rfl
      · rw [parseLoop_of_advanced hne' hnext, hrest, parseLoop_nil, parseLoop_nil]
        exact Extends.refl _

theorem parse_append (text more : JsString) (final : Bool) :
    Extends (parse text false) (parse (text ++ more) final) :=
  parseLoop_append final Found.none text more

/-! ## Streams -/

example : streamSafeContent (js "Hi [CARD][{}") = js "Hi " := by decide +kernel

example : (parseCardMarkers (js "Hi [CARD][{}] there")).text = js "Hi  there" := by
  decide +kernel

namespace CardMarkerStream

/-- Everything a stream returns while the chunks arrive. -/
def pushAll (stream : CardMarkerStream) : List JsString →
    CardMarkerStream × List CardMarkerParseResult
  | [] => (stream, [])
  | chunk :: rest =>
    let pushed := stream.push chunk
    let later := pushed.1.pushAll rest
    (later.1, pushed.2 :: later.2)

theorem pushAll_buffer (stream : CardMarkerStream) (chunks : List JsString) :
    (stream.pushAll chunks).1.buffer = stream.buffer ++ chunks.flatten := by
  induction chunks generalizing stream with
  | nil => rw [pushAll, flatten_nil, append_nil]
  | cons chunk rest ih =>
    rw [pushAll]
    dsimp only
    rw [ih, push, flatten_cons, append_assoc]

section

variable {stream : CardMarkerStream} {chunks : List JsString} {result : CardMarkerParseResult}
  (h : result ∈ (stream.pushAll chunks).2)
include h

/-- A result of a stream is that of a beginning of the whole text. -/
theorem mem_pushAll :
    ∃ more, ∃ text, text ++ more = (stream.pushAll chunks).1.buffer ∧
      result = parse text false := by
  induction chunks generalizing stream with
  | nil => cases h
  | cons chunk rest ih =>
    rw [pushAll] at h ⊢
    dsimp only at h ⊢
    rcases mem_cons.mp h with hnow | hlater
    · refine ⟨rest.flatten, stream.buffer ++ chunk, ?_, hnow⟩
      rw [pushAll_buffer]
      rfl
    · exact ih hlater

/-- A result of a stream extends what had been received before. -/
theorem extends_of_mem_pushAll :
    Extends (parse stream.buffer false) result := by
  induction chunks generalizing stream with
  | nil => cases h
  | cons chunk rest ih =>
    have hnext : Extends (parse stream.buffer false) (stream.push chunk).2 :=
      parse_append stream.buffer chunk false
    rw [pushAll] at h
    rcases mem_cons.mp h with hnow | hlater
    · rw [hnow]
      exact hnext
    · exact hnext.trans (ih hlater)

end

/-- Each result of a stream extends the ones before it. -/
theorem pushAll_pairwise (stream : CardMarkerStream) (chunks : List JsString) :
    (stream.pushAll chunks).2.Pairwise Extends := by
  induction chunks generalizing stream with
  | nil => exact Pairwise.nil
  | cons chunk rest ih =>
    rw [pushAll]
    dsimp only
    apply Pairwise.cons _ (ih _)
    intro result hresult
    exact extends_of_mem_pushAll hresult

end CardMarkerStream

/-- Streaming never takes anything back: a beginning of a reply shows a
beginning of what the longer reply and the final one show, with the cards and
commands among the first of theirs; and so does every result of a stream that
receives the reply in pieces. -/
theorem streaming_never_retracts (text more : JsString) (chunks : List JsString) :
    streamSafeContent text <+: streamSafeContent (text ++ more) ∧
    streamSafeContent text <+: (parseCardMarkers (text ++ more)).text ∧
    (parse text false).cards <+: (parseCardMarkers (text ++ more)).cards ∧
    (parse text false).commands <+: (parseCardMarkers (text ++ more)).commands ∧
    let streamed := CardMarkerStream.new.pushAll chunks
    streamed.1.finish = parseCardMarkers chunks.flatten ∧
      streamed.2.Pairwise Extends ∧
      ∀ result ∈ streamed.2, result.text <+: streamed.1.finish.text ∧
        result.cards <+: streamed.1.finish.cards ∧
        result.commands <+: streamed.1.finish.commands := by
  have hlater := parse_append text more false
  have hfinal := parse_append text more true
  refine ⟨hlater.text, hfinal.text, hfinal.cards, hfinal.commands, ?_,
    CardMarkerStream.pushAll_pairwise _ _, ?_⟩
  · rw [CardMarkerStream.finish, CardMarkerStream.pushAll_buffer]
    rfl
  · intro result hresult
    obtain ⟨more, text, hbuffer, hparse⟩ := CardMarkerStream.mem_pushAll hresult
    have hextends := parse_append text more true
    rw [hbuffer] at hextends
    rw [hparse]
    exact ⟨hextends.text, hextends.cards, hextends.commands⟩

end ClawMessenger.Ports.ParseMarker

import ClawMessenger.Ports.ParseMarker
import ClawMessenger.Verified.TextSeams

/-!
# Text that is parsed twice

An accepted marker leaves nothing in its place, so what stands before it and what is
shown after it become neighbours, and an opener may arise that was in neither.  `joins`
follows the partial opener that stands before the cursor over the text and says whether
that happens.  Where it does not, what `parseCardMarkers` shows is final: it has no
opener, and a second parse finds nothing in it.
-/

namespace ClawMessenger.Ports.ParseMarker

open Verified Verified.JsString Verified.TextSearch List

/-! ## Seams -/

/-- The end of a text that may still become an opener. -/
def partialOpener (text : JsString) : JsString := partialEnd Opener.value openers text

def hasOpener (text : JsString) : Bool := (earliestOpener text).isSome

/-- A marker that leaves nothing in its place. -/
def accepted (markerCount : Nat) (opener : Opener) (json : JsString) : Bool :=
  decide (markerCount < MAX_CARD_MARKERS) && (markerValue? opener json (scanJson json)).isSome

/-- Where the loop goes on behind a marker. -/
def afterMarker (json : JsString) : JsString :=
  if json[(scanJson json).stop]? = some closeBracket then json.drop ((scanJson json).stop + 1) else []

variable {text : JsString}

theorem length_afterMarker_lt {opener : Opener} {index : Nat}
    (h : earliestOpener text = some (opener, index)) :
    (afterMarker (text.drop (index + opener.value.length))).length < text.length := by
  obtain ⟨hmem, hat, _⟩ := earliest_spec h
  have hpos := openers_value_pos opener hmem
  have hfit := indexOf?_add_length_le hat
  unfold afterMarker
  split
  · rw [length_drop, length_drop]
    omega
  · rw [length_nil]
    omega

/-- An opener arises at a seam, or the text ends in a partial one.  `held` is the partial
opener that accepted markers have brought before the text; a replaced marker is shown as
a text that begins with `[`. -/
def joins (held : JsString) (markerCount : Nat) (text : JsString) : Bool :=
  if text = [] then !held.isEmpty
  else
    match _h : earliestOpener text with
    | none =>
      if trailingOpenerPrefix text = 0 then hasOpener (held ++ text) || !(partialOpener (held ++ text)).isEmpty
      else hasOpener (held ++ text.take (text.length - trailingOpenerPrefix text) ++ [openBracket])
    | some (opener, index) =>
      let json := text.drop (index + opener.value.length)
      let before := held ++ text.take index
      if json = [] then hasOpener (before ++ [openBracket])
      else if !(scanJson json).complete then hasOpener (before ++ [openBracket])
      else if accepted markerCount opener json then
        hasOpener before || joins (partialOpener before) (markerCount + 1) (afterMarker json)
      else hasOpener (before ++ [openBracket]) || joins [] (markerCount + 1) (afterMarker json)
termination_by text.length
decreasing_by all_goals exact length_afterMarker_lt _h

/-- No opener, and none that is left open at the end. -/
def Settled (text : JsString) : Prop := earliestOpener text = none ∧ partialOpener text = []

/-! ## The text of a replaced marker -/

def letterI : UInt16 := 0x69

def invalidRest : JsString := js "nvalid card marker]"

theorem invalid_text : INVALID_CARD_MARKER_TEXT = [openBracket] ++ letterI :: invalidRest := by decide

theorem letterI_notMem : ∀ opener ∈ openers, letterI ∉ opener.value := by decide

theorem invalidRest_settled : earliestOpener invalidRest = none ∧ trailingOpenerPrefix invalidRest = 0 := by
  decide +kernel

theorem earliestOpener_invalid (text : JsString) :
    earliestOpener (text ++ INVALID_CARD_MARKER_TEXT) = none ↔ earliestOpener (text ++ [openBracket]) = none := by
  rw [invalid_text, ← append_assoc]
  have hsplit : earliestOpener ((text ++ [openBracket]) ++ letterI :: invalidRest) = none ↔
      earliestOpener (text ++ [openBracket]) = none ∧ earliestOpener invalidRest = none :=
    earliest_separated letterI_notMem
  rw [hsplit]
  exact and_iff_left invalidRest_settled.1

theorem partialOpener_invalid (text : JsString) : partialOpener (text ++ INVALID_CARD_MARKER_TEXT) = [] := by
  rw [invalid_text, ← append_assoc]
  apply partialEnd_eq_nil_iff.mpr
  apply Nat.le_zero.mp
  have hle : trailingOpenerPrefix ((text ++ [openBracket]) ++ letterI :: invalidRest) ≤ trailingOpenerPrefix invalidRest :=
    heldBack_separated letterI_notMem
  rw [invalidRest_settled.2] at hle
  exact hle

/-! ## One round -/

theorem text_mark (found : Found) (opener : Opener) (json : JsString) :
    (found.mark opener json (scanJson json)).text =
        (if accepted found.markerCount opener json then found.text else found.text ++ INVALID_CARD_MARKER_TEXT) ∧
      (found.mark opener json (scanJson json)).markerCount = found.markerCount + 1 := by
  unfold Found.mark accepted
  dsimp only
  by_cases hcount : found.markerCount < MAX_CARD_MARKERS
  · rw [if_neg (by omega), decide_eq_true hcount, Bool.true_and]
    cases hvalue : markerValue? opener json (scanJson json) with
    | none => exact ⟨rfl, rfl⟩
    | some parsed => cases opener.tag <;> exact ⟨rfl, rfl⟩
  · rw [if_pos (by omega), decide_eq_false hcount, Bool.false_and]
    exact ⟨rfl, rfl⟩

section Round

variable {found : Found} {text : JsString}

variable {shown : JsString}

/-- The text shown so far may be replaced by its partial opener. -/
theorem opener_seam (h : earliestOpener shown = none) (more : JsString) :
    earliestOpener (shown ++ more) = none ↔ hasOpener (partialOpener shown ++ more) = false := by
  unfold hasOpener
  rw [Option.isSome_eq_false_iff, Option.isNone_iff_eq_none]
  exact earliest_append_iff h more

theorem partial_seam (shown more : JsString) :
    partialOpener (shown ++ more) = partialOpener (partialOpener shown ++ more) := partialEnd_append more

theorem settled_invalid_iff (h : earliestOpener shown = none) (more : JsString) :
    Settled (shown ++ more ++ INVALID_CARD_MARKER_TEXT) ↔
      hasOpener (partialOpener shown ++ more ++ [openBracket]) = false := by
  unfold Settled
  rw [partialOpener_invalid, earliestOpener_invalid, append_assoc, append_assoc, opener_seam h]
  exact and_iff_left rfl

theorem settled_of_extends {before later : JsString} (h : before <+: later) (hsettled : Settled later) :
    earliestOpener before = none := earliest_none_of_within hsettled.1 h.isInfix

/-- What the loop leaves is settled exactly if nothing joins. -/
theorem parseLoop_settled_iff (found : Found) (text : JsString) (hquiet : earliestOpener found.text = none) :
    Settled (parseLoop true found text).text ↔ joins (partialOpener found.text) found.markerCount text = false := by
  induction hlength : text.length using Nat.strong_induction_on generalizing found text with
  | _ n ih =>
    by_cases hne : text = []
    · rw [hne, parseLoop_nil, joins, if_pos rfl]
      rw [Bool.not_eq_false', List.isEmpty_iff]
      exact and_iff_right hquiet
    rw [joins, if_neg hne]
    cases hfound : earliestOpener text with
    | none =>
      split
      case h_2 heq => cases heq
      by_cases hheld : trailingOpenerPrefix text = 0
      · have hstep : parseStep true found text = .stopped (found.show text) := by
          rw [parseStep, hfound]
          exact if_pos hheld
        rw [parseLoop_of_stopped hne hstep, if_pos hheld, Bool.or_eq_false_iff, Bool.not_eq_false', List.isEmpty_iff,
          ← partial_seam, ← opener_seam hquiet]
        exact Iff.rfl
      · have hstep : parseStep true found text = .stopped
            ((found.show (text.take (text.length - trailingOpenerPrefix text))).fail .incomplete_marker) := by
          rw [parseStep, hfound]
          exact if_neg hheld
        rw [parseLoop_of_stopped hne hstep, if_neg hheld]
        exact settled_invalid_iff hquiet _
    | some selected =>
      obtain ⟨opener, index⟩ := selected
      split
      case h_1 heq => cases heq
      rename_i opener' index' heq
      cases heq
      have hshort := length_afterMarker_lt hfound
      generalize hjson : text.drop (index + opener.value.length) = json at hshort ⊢
      by_cases hempty : json = []
      · have hstep : parseStep true found text =
            .stopped ((found.show (text.take index)).fail .incomplete_marker) := by
          rw [parseStep, hfound]
          dsimp only
          rw [hjson, if_pos hempty, if_pos rfl]
        rw [parseLoop_of_stopped hne hstep, if_pos hempty]
        exact settled_invalid_iff hquiet _
      by_cases hcomplete : (scanJson json).complete = true
      · have hstep : parseStep true found text =
            .advanced ((found.show (text.take index)).mark opener json (scanJson json)) (afterMarker json) := by
          rw [parseStep, hfound]
          dsimp only
          rw [hjson, if_neg hempty, if_neg (by simp [hcomplete]), if_neg (by simp)]
          rfl
        obtain ⟨htext, hcount⟩ := text_mark (found.show (text.take index)) opener json
        change _ = (if accepted found.markerCount opener json = true then found.text ++ text.take index
          else found.text ++ text.take index ++ INVALID_CARD_MARKER_TEXT) at htext
        have hloop := extends_parseLoop true ((found.show (text.take index)).mark opener json (scanJson json))
          (afterMarker json)
        have hnext := ih _ (hlength ▸ hshort) ((found.show (text.take index)).mark opener json (scanJson json))
          (afterMarker json)
        rw [parseLoop_of_advanced hne hstep, if_neg hempty, if_neg (by simp [hcomplete])]
        by_cases haccepted : accepted found.markerCount opener json = true
        · rw [if_pos haccepted] at htext ⊢
          rw [htext, hcount] at hnext
          rw [Bool.or_eq_false_iff, ← opener_seam hquiet, ← partial_seam]
          constructor
          · intro hsettled
            have hquiet' : earliestOpener (found.text ++ text.take index) = none :=
              settled_of_extends (htext ▸ hloop.text) hsettled
            exact ⟨hquiet', (hnext hquiet' rfl).mp hsettled⟩
          · rintro ⟨hquiet', hjoins⟩
            exact (hnext hquiet' rfl).mpr hjoins
        · rw [if_neg haccepted] at htext ⊢
          rw [htext, hcount] at hnext
          have hmark := earliestOpener_invalid (found.text ++ text.take index)
          have hseam := opener_seam hquiet (text.take index ++ [openBracket])
          rw [← List.append_assoc, ← List.append_assoc] at hseam
          rw [Bool.or_eq_false_iff, ← hseam, ← hmark]
          have hempty' : partialOpener (found.text ++ text.take index ++ INVALID_CARD_MARKER_TEXT) = [] :=
            partialOpener_invalid _
          constructor
          · intro hsettled
            have hquiet' :=
              settled_of_extends (htext ▸ hloop.text) hsettled
            refine ⟨hquiet', ?_⟩
            have hjoins := (hnext hquiet' rfl).mp hsettled
            rw [← hempty']
            exact hjoins
          · rintro ⟨hquiet', hjoins⟩
            apply (hnext hquiet' rfl).mpr
            rw [← hempty'] at hjoins
            exact hjoins
      · have hincomplete : (!(scanJson json).complete) = true := by simpa using hcomplete
        have hstep : parseStep true found text = .stopped ((found.show (text.take index)).fail
            (if (scanJson json).oversized then .marker_too_large else .incomplete_marker)) := by
          rw [parseStep, hfound]
          dsimp only
          rw [hjson, if_neg hempty, if_pos hincomplete, if_pos rfl]
        rw [parseLoop_of_stopped hne hstep, if_neg hempty, if_pos hincomplete]
        exact settled_invalid_iff hquiet _

end Round

/-! ## Parsing again -/

theorem mark_found (found : Found) (opener : Opener) (json : JsString) (scan : ScanResult) :
    (found.mark opener json scan).cards ≠ [] ∨ (found.mark opener json scan).commands ≠ [] ∨
      (found.mark opener json scan).errors ≠ [] := by
  unfold Found.mark
  dsimp only
  split
  · exact .inr (.inr (by simp [Found.fail]))
  · split
    · exact .inr (.inr (by simp [Found.fail]))
    · split
      · exact .inl (by simp)
      · exact .inr (.inl (by simp))

/-- A parse that finds nothing ran over a settled text. -/
theorem settled_of_nothing
    (h : (parseCardMarkers text).cards = [] ∧ (parseCardMarkers text).commands = [] ∧ (parseCardMarkers text).errors = []) :
    Settled text := by
  obtain ⟨hcards, hcommands, herrors⟩ := h
  by_cases hne : text = []
  · subst hne
    exact ⟨by decide +kernel, by decide +kernel⟩
  have hround := parseStep_extends_parseLoop true Found.none hne
  have hnothing : (parseStep true Found.none text).found.cards = [] ∧
      (parseStep true Found.none text).found.commands = [] ∧ (parseStep true Found.none text).found.errors = [] := by
    refine ⟨?_, ?_, ?_⟩
    · exact prefix_nil.mp (hcards ▸ hround.cards)
    · exact prefix_nil.mp (hcommands ▸ hround.commands)
    · exact prefix_nil.mp (herrors ▸ hround.errors)
  have herror : ∀ (found : Found) error, (found.fail error).errors ≠ [] := by
    intro found error
    simp [Found.fail]
  cases hfound : earliestOpener text with
  | none =>
    refine ⟨hfound, partialEnd_eq_nil_iff.mpr ?_⟩
    by_contra hopen
    have hheld : trailingOpenerPrefix text ≠ 0 := hopen
    apply herror (Found.none.show (text.take (text.length - trailingOpenerPrefix text))) .incomplete_marker
    rw [← hnothing.2.2, parseStep, hfound]
    rw [if_neg hheld]
    rfl
  | some selected =>
    exfalso
    obtain ⟨opener, index⟩ := selected
    rw [parseStep, hfound] at hnothing
    dsimp only at hnothing
    split at hnothing
    · exact herror _ _ hnothing.2.2
    · split at hnothing
      · exact herror _ _ hnothing.2.2
      · rw [if_neg (by simp)] at hnothing
        rcases mark_found (Found.none.show (text.take index)) opener (text.drop (index + opener.value.length))
          (scanJson (text.drop (index + opener.value.length))) with hcard | hcommand | herr
        · exact hcard hnothing.1
        · exact hcommand hnothing.2.1
        · exact herr hnothing.2.2

theorem parse_settled (h : Settled text) : parseCardMarkers text = ⟨text, [], [], []⟩ := by
  unfold parseCardMarkers parse
  by_cases hne : text = []
  · rw [hne, parseLoop_nil]
    rfl
  · have hheld : trailingOpenerPrefix text = 0 := partialEnd_eq_nil_iff.mp h.2
    have hstep : parseStep true Found.none text = .stopped (Found.none.show text) := by
      rw [parseStep, h.1]
      exact if_pos hheld
    rw [parseLoop_of_stopped hne hstep]
    rfl

/-- What is shown has no opener and is left alone by a second parse exactly where no
opener arises at a seam and the text does not end in a partial one. -/
theorem stripping_idempotent_iff (text : JsString) :
    ((∀ opener ∈ openers, ¬ opener.value <:+: (parseCardMarkers text).text) ∧
        parseCardMarkers (parseCardMarkers text).text = ⟨(parseCardMarkers text).text, [], [], []⟩) ↔
      joins [] 0 text = false := by
  have hstart : earliestOpener Found.none.text = none := by decide +kernel
  have hopen : partialOpener Found.none.text = [] := by decide +kernel
  have hloop := parseLoop_settled_iff Found.none text hstart
  rw [hopen] at hloop
  rw [show joins [] 0 text = joins [] Found.none.markerCount text from rfl, ← hloop]
  constructor
  · rintro ⟨_, hagain⟩
    have hsettled : Settled (parseCardMarkers text).text :=
      settled_of_nothing ⟨by rw [hagain], by rw [hagain], by rw [hagain]⟩
    exact hsettled
  · intro hsettled
    exact ⟨earliest_eq_none_iff.mp hsettled.1, parse_settled hsettled⟩

example : joins [] 0 (js "Hi [CARD][{}] there [") = false := by decide +kernel

/-- An accepted marker between the halves of an opener: the rest is a marker again. -/
theorem stripping_assembles_marker :
    (parseCardMarkers (js "[CA[CARD][{}]RD][{}]")).text = js "[CARD][{}]" ∧
      (parseCardMarkers (parseCardMarkers (js "[CA[CARD][{}]RD][{}]")).text).cards ≠ [] := by
  decide +kernel

end ClawMessenger.Ports.ParseMarker

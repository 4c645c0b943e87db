import ClawMessenger.Verified.GoText
import Mathlib.Data.List.Basic

/-!
# The `/issue` command of a chat message

`ParseIssueCommand` recognizes the command on the first line that is not white
space, and `firstIssueCommandLine` finds that line again to cut the description
out of the enriched message.  The search is right: the command's lines are the
last lines of the message, so counting the lines that look like the directive
from the end finds the one that is meant (`bounds_found`).

The recognition is made twice.  The parser strips blanks and tabs and wants one
of them, or the end of the line, behind the token; the search trims all white
space first.  A carriage return behind a bare `/issue`, or any other white space
before the token, tells them apart (`Plain`).
-/

namespace ClawMessenger.Ports.IssueDirective

open Verified.GoText List

def issueCommandPrefix : Text := "/issue".toList

structure IssueCommand where
  title : Text
  description : Text

/-- `strings.Split(text, "\n")`. -/
def lines (text : Text) : List Text := text.splitOn '\n'

/-- `strings.Join(lines, "\n")`. -/
def joined (ls : List Text) : Text := ['\n'].intercalate ls

def isBlank (c : Char) : Bool := c = ' ' || c = '\t'

/-- `rest == "" || rest[0] == ' ' || rest[0] == '\t'`. -/
def startsBlank : Text → Bool
  | [] => true
  | c :: _ => isBlank c

/-- The token, and behind it nothing or a blank. -/
def isDirective (line : Text) : Bool :=
  issueCommandPrefix.isPrefixOf line && startsBlank (line.drop issueCommandPrefix.length)

def isEmptyLine (line : Text) : Bool := trimSpace line = []

/-- `strings.TrimRight(text, " \t\n")`. -/
def trimRight (text : Text) : Text := text.rdropWhile fun c => isBlank c || c = '\n'

def parseIssueCommand (body : Text) : Option IssueCommand :=
  match (lines body).dropWhile isEmptyLine with
  | [] => none
  | first :: later =>
    let trimmed := first.dropWhile isBlank
    if isDirective trimmed then
      some ⟨trimSpace (trimmed.drop issueCommandPrefix.length), trimRight (joined later)⟩
    else none

/-- The loop of `firstIssueCommandLine`. -/
def firstDirective : List Text → Option Text
  | [] => none
  | line :: rest =>
    let trimmed := trimSpace line
    if isDirective trimmed then some trimmed
    else if trimmed ≠ [] then none
    else firstDirective rest

def firstIssueCommandLine (commandText : Text) : Option Text := firstDirective (lines commandText)

def countMatchingLines (text expected : Text) : Nat :=
  (lines text).countP fun line => trimSpace line = expected

structure TextLineBounds where
  start : Nat
  stop : Nat

/-- The loop of `matchingLineBounds` over the lines from `offset` on. -/
def boundsFrom (expected : Text) : Nat → List Text → List TextLineBounds
  | _, [] => []
  | offset, [line] =>
    if trimSpace line = expected then [⟨offset, offset + line.length⟩] else []
  | offset, line :: next :: rest =>
    let stop := offset + line.length + 1
    if trimSpace line = expected then ⟨offset, stop⟩ :: boundsFrom expected stop (next :: rest)
    else boundsFrom expected stop (next :: rest)

def matchingLineBounds (body expected : Text) : List TextLineBounds :=
  boundsFrom expected 0 (lines body)

def issueCommandLineBounds (body commandText : Text) : Option TextLineBounds :=
  match firstIssueCommandLine commandText with
  | none => none
  | some expected =>
    let commandOccurrences := countMatchingLines commandText expected
    let candidates := matchingLineBounds body expected
    if candidates.length < commandOccurrences then none
    else candidates[candidates.length - commandOccurrences]?

def issueDescriptionFromCommandBody (body commandText fallback : Text) : Text :=
  match issueCommandLineBounds body commandText with
  | none => fallback
  | some bounds => trimSpace (body.drop bounds.stop)

/-! ## One line read twice -/

/-- Both recognitions read the line alike: only blanks and tabs before the
token, and behind a bare token nothing or a blank. -/
def Plain (line : Text) : Prop :=
  (∀ c ∈ line.takeWhile isSpace, isBlank c = true) ∧
  (trimSpace line = issueCommandPrefix →
    startsBlank ((line.dropWhile isSpace).drop issueCommandPrefix.length) = true)

theorem isSpace_of_isBlank {c : Char} (h : isBlank c = true) : isSpace c = true := by
  simp only [isBlank, Bool.or_eq_true, decide_eq_true_eq] at h
  rcases h with rfl | rfl <;> rfl

variable {line : Text}

theorem isDirective_iff :
    isDirective line = true ↔ ∃ rest, line = issueCommandPrefix ++ rest ∧ startsBlank rest = true := by
  rw [isDirective, Bool.and_eq_true, isPrefixOf_iff_prefix]
  constructor
  · rintro ⟨⟨rest, rfl⟩, hrest⟩
    exact ⟨rest, rfl, by simpa using hrest⟩
  · rintro ⟨rest, rfl, hrest⟩
    exact ⟨prefix_append _ _, by simpa using hrest⟩

theorem rdropWhile_directive (rest : Text) : (issueCommandPrefix ++ rest).rdropWhile isSpace
    = issueCommandPrefix ++ rest.rdropWhile isSpace :=
  rdropWhile_append (c := 'e') (by decide) "/issu".toList rest

variable {rest : Text}

/-- Before the token, blanks and tabs are all the white space there is. -/
theorem strip_eq_of_blank (h : line.dropWhile isBlank = issueCommandPrefix ++ rest) :
    line.dropWhile isSpace = issueCommandPrefix ++ rest ∧
      ∀ c ∈ line.takeWhile isSpace, isBlank c = true := by
  induction line with
  | nil => cases h
  | cons c line ih =>
    by_cases hc : isBlank c = true
    · rw [dropWhile_cons_of_pos hc] at h
      obtain ⟨hdrop, htake⟩ := ih h
      have hspace := isSpace_of_isBlank hc
      rw [dropWhile_cons_of_pos hspace, takeWhile_cons_of_pos hspace]
      exact ⟨hdrop, forall_mem_cons.mpr ⟨hc, htake⟩⟩
    · rw [dropWhile_cons_of_neg hc] at h
      have hslash : isSpace c = false := by
        rw [(cons.inj h).1]
        decide
      rw [dropWhile_cons_of_neg (by simp [hslash]),
        takeWhile_cons_of_neg (by simp [hslash])]
      exact ⟨h, by simp⟩

theorem strip_eq_of_space (h : line.dropWhile isSpace = issueCommandPrefix ++ rest)
    (hblank : ∀ c ∈ line.takeWhile isSpace, isBlank c = true) :
    line.dropWhile isBlank = issueCommandPrefix ++ rest := by
  induction line with
  | nil => cases h
  | cons c line ih =>
    by_cases hc : isSpace c = true
    · rw [dropWhile_cons_of_pos hc] at h
      rw [takeWhile_cons_of_pos hc, forall_mem_cons] at hblank
      rw [dropWhile_cons_of_pos hblank.1]
      exact ih h hblank.2
    · rw [dropWhile_cons_of_neg hc] at h
      have hnot : ¬ isBlank c = true := fun hblank => hc (isSpace_of_isBlank hblank)
      rw [dropWhile_cons_of_neg hnot, h]

/-- What the parser takes for the command, the search does too. -/
theorem directive_of_parsed (h : isDirective (line.dropWhile isBlank) = true) :
    ∃ rest, line.dropWhile isBlank = issueCommandPrefix ++ rest ∧
      trimSpace line = issueCommandPrefix ++ rest.rdropWhile isSpace ∧
      isDirective (trimSpace line) = true ∧ Plain line := by
  obtain ⟨rest, hrest, hstart⟩ := isDirective_iff.mp h
  obtain ⟨hdrop, htake⟩ := strip_eq_of_blank hrest
  have htrim : trimSpace line = issueCommandPrefix ++ rest.rdropWhile isSpace := by
    rw [trimSpace, hdrop, rdropWhile_directive]
  have hkept : startsBlank (rest.rdropWhile isSpace) = true := by
    obtain ⟨tail, htail⟩ := rdropWhile_prefix isSpace rest
    cases hr : rest.rdropWhile isSpace with
    | nil => rfl
    | cons c r =>
      rw [hr] at htail
      rw [← htail] at hstart
      exact hstart
  refine ⟨rest, hrest, htrim, isDirective_iff.mpr ⟨_, htrim, hkept⟩, htake, fun _ => ?_⟩
  rw [hdrop, drop_left]
  exact hstart

theorem parsed_of_directive (h : isDirective (trimSpace line) = true) (hplain : Plain line) :
    isDirective (line.dropWhile isBlank) = true := by
  obtain ⟨core, hcore, hstart⟩ := isDirective_iff.mp h
  obtain ⟨tail, htail⟩ := rdropWhile_prefix isSpace (line.dropWhile isSpace)
  rw [← trimSpace, hcore, append_assoc] at htail
  refine isDirective_iff.mpr ⟨core ++ tail, strip_eq_of_space htail.symm hplain.1, ?_⟩
  cases core with
  | nil =>
    have hbare := hplain.2 (by rw [hcore, append_nil])
    rwa [← htail, drop_left] at hbare
  | cons c core => exact hstart

/-! ## The first line -/

/-- The first line that is not white space. -/
def firstLine (text : Text) : Option Text := ((lines text).dropWhile isEmptyLine).head?

theorem firstDirective_eq (ls : List Text) :
    firstDirective ls = match ls.dropWhile isEmptyLine with
      | [] => none
      | line :: _ => if isDirective (trimSpace line) then some (trimSpace line) else none := by
  induction ls with
  | nil => rfl
  | cons line rest ih =>
    rw [firstDirective]
    by_cases hempty : trimSpace line = []
    · rw [dropWhile_cons_of_pos (by simpa [isEmptyLine] using hempty), hempty]
      exact ih
    · rw [dropWhile_cons_of_neg (by simpa [isEmptyLine] using hempty)]
      simp [hempty]

/-- The search and the parser speak of one line: its trimmed text is what the
search returns, the title is what stands there behind the token, and the
description is what follows. -/
def SameLine (text expected : Text) (cmd : IssueCommand) : Prop :=
  ∃ blank line later rest, lines text = blank ++ line :: later ∧
    (∀ l ∈ blank, trimSpace l = []) ∧ trimSpace line = expected ∧
    expected = issueCommandPrefix ++ rest ∧ cmd.title = trimSpace rest ∧
    cmd.description = trimRight (joined later)

/-- Search and parser find a command together, on the same line. -/
def Agree (text : Text) : Prop :=
  ((∃ expected, firstIssueCommandLine text = some expected) ↔
    ∃ cmd, parseIssueCommand text = some cmd) ∧
  ∀ expected cmd, firstIssueCommandLine text = some expected → parseIssueCommand text = some cmd →
    SameLine text expected cmd

variable {text : Text}

/-- A parsed command: its line, what the search makes of it and what follows. -/
theorem parsed_line {cmd : IssueCommand} (h : parseIssueCommand text = some cmd) :
    ∃ blank line later rest, lines text = blank ++ line :: later ∧
      (∀ l ∈ blank, trimSpace l = []) ∧ trimSpace line = issueCommandPrefix ++ rest ∧
      cmd.title = trimSpace rest ∧ cmd.description = trimRight (joined later) ∧
      firstIssueCommandLine text = some (trimSpace line) ∧
      firstLine text = some line ∧ Plain line := by
  unfold parseIssueCommand at h
  cases hdrop : (lines text).dropWhile isEmptyLine with
  | nil =>
    rw [hdrop] at h
    cases h
  | cons line later =>
    simp only [hdrop] at h
    split_ifs at h with hdirective
    cases h
    obtain ⟨rest, hrest, htrim, hfound, hplain⟩ := directive_of_parsed hdirective
    refine ⟨(lines text).takeWhile isEmptyLine, line, later, _, ?_, ?_, htrim, ?_, rfl, ?_, ?_,
      hplain⟩
    · rw [← hdrop, takeWhile_append_dropWhile]
    · intro l hl
      have hempty : isEmptyLine l = true := mem_takeWhile_imp hl
      exact of_decide_eq_true hempty
    · rw [trimSpace_rdropWhile, hrest, drop_left]
    · rw [firstIssueCommandLine, firstDirective_eq, hdrop]
      exact if_pos hfound
    · rw [firstLine, hdrop]
      rfl

theorem agree_iff (text : Text) : Agree text ↔
    ∀ line, firstLine text = some line → isDirective (trimSpace line) = true → Plain line := by
  have hfirst : ∀ line, firstLine text = some line → isDirective (trimSpace line) = true →
      firstIssueCommandLine text = some (trimSpace line) := by
    intro line hline hdirective
    obtain ⟨later, hdrop⟩ := head?_eq_some_iff.mp hline
    rw [firstIssueCommandLine, firstDirective_eq, hdrop]
    exact if_pos hdirective
  constructor
  · intro h line hline hdirective
    obtain ⟨cmd, hcmd⟩ := h.1.mp ⟨_, hfirst line hline hdirective⟩
    obtain ⟨_, line', _, _, _, _, _, _, _, _, hline', hplain⟩ := parsed_line hcmd
    rw [hline, Option.some.injEq] at hline'
    exact hline' ▸ hplain
  · intro h
    refine ⟨⟨?_, ?_⟩, ?_⟩
    · rintro ⟨expected, hexpected⟩
      rw [firstIssueCommandLine, firstDirective_eq] at hexpected
      cases hdrop : (lines text).dropWhile isEmptyLine with
      | nil =>
        rw [hdrop] at hexpected
        cases hexpected
      | cons line later =>
        simp only [hdrop] at hexpected
        split_ifs at hexpected with hdirective
        have hplain := h line (by rw [firstLine, hdrop]; rfl) hdirective
        simp only [parseIssueCommand, hdrop]
        rw [if_pos (parsed_of_directive hdirective hplain)]
        exact ⟨_, rfl⟩
    · rintro ⟨cmd, hcmd⟩
      obtain ⟨_, line, _, _, _, _, _, _, _, hfound, _⟩ := parsed_line hcmd
      exact ⟨_, hfound⟩
    · intro expected cmd hexpected hcmd
      obtain ⟨blank, line, later, rest, hlines, hblank, htrim, htitle, hdesc, hfound, _⟩ :=
        parsed_line hcmd
      rw [hexpected, Option.some.injEq] at hfound
      exact ⟨blank, line, later, rest, hlines, hblank, hfound.symm, hfound.trans htrim, htitle, hdesc⟩

/-! ## The command in the enriched message -/

/-- Lines with their line feeds. -/
def closed (ls : List Text) : Text := ls.flatMap (· ++ ['\n'])

theorem joined_append (ls : List Text) (line : Text) (later : List Text) :
    joined (ls ++ line :: later) = closed ls ++ joined (line :: later) := by
  induction ls with
  | nil => rfl
  | cons l ls ih =>
    rw [cons_append, joined, intercalate_cons_of_ne_nil (by simp), ← joined, ih]
    simp [closed]

theorem joined_lines (text : Text) : joined (lines text) = text := intercalate_splitOn '\n'

variable {before : Text}

/-- A text of whole lines stands before another one's lines. -/
theorem lines_append (h : before = [] ∨ before.getLast? = some '\n') (text : Text) :
    ∃ ls, closed ls = before ∧ lines (before ++ text) = ls ++ lines text := by
  rcases h with rfl | h
  · exact ⟨[], rfl, rfl⟩
  · obtain ⟨body, rfl⟩ := getLast?_eq_some_iff.mp h
    refine ⟨lines body, ?_, ?_⟩
    · have hjoined := joined_append (lines body) [] []
      have hempty : joined (lines body ++ [[]]) = body ++ ['\n'] := by
        have hsplit : lines (body ++ ['\n']) = lines body ++ [[]] :=
          splitOn_append_cons_self body []
        rw [← hsplit, joined_lines]
      rw [hempty] at hjoined
      simpa [joined] using hjoined.symm
    · rw [append_assoc]
      exact splitOn_append_cons_self body text

theorem length_boundsFrom (expected : Text) (offset : Nat) (ls : List Text) :
    (boundsFrom expected offset ls).length = ls.countP fun line => trimSpace line = expected := by
  induction ls generalizing offset with
  | nil => rfl
  | cons line ls ih =>
    cases ls with
    | nil => by_cases h : trimSpace line = expected <;> simp [boundsFrom, h]
    | cons next rest =>
      by_cases h : trimSpace line = expected
      · simp [boundsFrom, h, ih, countP_cons]
      · simp [boundsFrom, h, ih, countP_cons]

/-- The bounds in lines that stand before others. -/
theorem boundsFrom_append (expected : Text) (offset : Nat) (ls : List Text) (line : Text)
    (later : List Text) : ∃ first, boundsFrom expected offset (ls ++ line :: later)
        = first ++ boundsFrom expected (offset + (closed ls).length) (line :: later) ∧
      first.length = ls.countP fun line => trimSpace line = expected := by
  induction ls generalizing offset with
  | nil => exact ⟨[], rfl, rfl⟩
  | cons l ls ih =>
    obtain ⟨first, hfirst, hlength⟩ := ih (offset + l.length + 1)
    have hoffset : offset + (closed (l :: ls)).length
        = offset + l.length + 1 + (closed ls).length := by
      simp [closed]
      omega
    have hstep : boundsFrom expected offset (l :: ls ++ line :: later) =
        (if trimSpace l = expected then [⟨offset, offset + l.length + 1⟩] else []) ++
          boundsFrom expected (offset + l.length + 1) (ls ++ line :: later) := by
      cases ls with
      | nil | cons m ls => by_cases h : trimSpace l = expected <;> simp [boundsFrom, h]
    rw [hstep, hfirst, hoffset, ← append_assoc]
    refine ⟨_, rfl, ?_⟩
    by_cases h : trimSpace l = expected
    · simp [h, hlength, Nat.add_comm]
    · simp [h, hlength]

/-- Counting from the end finds the directive of the command: the text behind
the bounds is what follows the command's line. -/
theorem bounds_found (h : before = [] ∨ before.getLast? = some '\n') {blank : List Text}
    {later : List Text} (hlines : lines text = blank ++ line :: later)
    (hblank : ∀ l ∈ blank, trimSpace l = []) (hne : trimSpace line ≠ [])
    (hfound : firstIssueCommandLine text = some (trimSpace line)) :
    ∃ bounds, issueCommandLineBounds (before ++ text) text = some bounds ∧
      (before ++ text).drop bounds.stop = joined later := by
  obtain ⟨ls, hclosed, hbody⟩ := lines_append h text
  have hnone : (blank.countP fun l => trimSpace l = trimSpace line) = 0 := by
    rw [countP_eq_zero]
    intro l hl
    rw [decide_eq_true_eq, hblank l hl]
    exact fun heq => hne heq.symm
  obtain ⟨first, hfirst, hlength⟩ := boundsFrom_append (trimSpace line) 0 (ls ++ blank) line later
  have hcandidates : matchingLineBounds (before ++ text) (trimSpace line) = first ++
      boundsFrom (trimSpace line) (closed (ls ++ blank)).length (line :: later) := by
    rw [matchingLineBounds, hbody, hlines, ← append_assoc, hfirst, Nat.zero_add]
  have hcount : countMatchingLines text (trimSpace line)
      = (boundsFrom (trimSpace line) (closed (ls ++ blank)).length (line :: later)).length := by
    rw [countMatchingLines, hlines, countP_append, hnone, Nat.zero_add, length_boundsFrom]
  have htext : before ++ text = closed (ls ++ blank) ++ joined (line :: later) := by
    rw [← joined_lines text, hlines, joined_append, ← hclosed]
    simp [closed]
  rw [issueCommandLineBounds, hfound, htext]
  simp only [← htext, hcandidates, hcount, length_append]
  rw [if_neg (by omega), Nat.add_sub_cancel, getElem?_append_right (Nat.le_refl _),
    Nat.sub_self, htext]
  cases later with
  | nil =>
    refine ⟨_, by rw [boundsFrom, if_pos rfl]; rfl, ?_⟩
    simp [joined]
  | cons next rest =>
    refine ⟨_, by rw [boundsFrom, if_pos rfl]; rfl, ?_⟩
    have hline : joined (line :: next :: rest) = line ++ '\n' :: joined (next :: rest) := by
      simp [joined, intercalate_cons_of_ne_nil]
    simp [hline, Nat.add_assoc]

/-- The search agrees with the parser exactly where the first line is read
alike, and whenever the parser accepts a command, its description is cut out of
every message that ends in it. -/
theorem commands_located (text : Text) :
    (Agree text ↔
      ∀ line, firstLine text = some line → isDirective (trimSpace line) = true → Plain line) ∧
    ∀ cmd, parseIssueCommand text = some cmd → ∃ blank line later, lines text = blank ++ line :: later ∧
      firstLine text = some line ∧
      ∀ before fallback : Text, before = [] ∨ before.getLast? = some '\n' →
        issueDescriptionFromCommandBody (before ++ text) text fallback = trimSpace (joined later) := by
  refine ⟨agree_iff text, fun cmd hcmd => ?_⟩
  obtain ⟨blank, line, later, rest, hlines, hblank, htrim, _, _, hfound, hfirst, _⟩ :=
    parsed_line hcmd
  refine ⟨blank, line, later, hlines, hfirst, fun before fallback hbefore => ?_⟩
  have hne : trimSpace line ≠ [] := by simp [htrim, issueCommandPrefix]
  obtain ⟨bounds, hbounds, hrest⟩ := bounds_found hbefore hlines hblank hne hfound
  simp only [issueDescriptionFromCommandBody, hbounds, hrest]

/-- A bare command with a carriage return: the search finds it, the parser does
not. -/
theorem carriage_return_parts : ¬ Agree "/issue\r\nDetails".toList := by
  intro h
  have hparsed := h.1.mp ⟨"/issue".toList, by decide⟩
  have hnone : parseIssueCommand "/issue\r\nDetails".toList = none := by decide
  rw [hnone] at hparsed
  obtain ⟨cmd, hcmd⟩ := hparsed
  cases hcmd

end ClawMessenger.Ports.IssueDirective

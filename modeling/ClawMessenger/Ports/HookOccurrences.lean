import ClawMessenger.Verified.GoText
import Mathlib.Data.List.Perm.Subperm
import Mathlib.Data.List.Sort
import Mathlib.Data.Nat.Basic

/-!
# The latest due occurrence of a plugin hook

`latestPluginHookOccurrence` walks the activations of a cron schedule in pages
of `NextOccurrencesUTC`.  An instant is counted in nanoseconds from the zero
`time.Time`, which the cron library answers with when its search gives up.

`NextOccurrencesUTC` does not look for that answer.  The zero time is not after
the limit, so it is taken for an occurrence and the walk begins again at the
year 1: from then on no page passes the instant the search gave up at
(`stuck_walk`).  The one search that may fail is the one nobody asks for,
behind a full page that ends at the limit.
-/

namespace ClawMessenger.Ports.HookOccurrences

open Verified.GoText List

/-- The cron and time zone functions the code calls; `next` gets its argument
in the location. -/
structure CronLibrary (E : Type) where
  Schedule : Type
  Location : Type
  parse : Text → Except E Schedule
  loadLocation : Text → Except E Location
  next : Schedule → Location → Nat → Nat
  addDays : Location → Nat → Nat → Nat

variable {E : Type} (lib : CronLibrary E)

def inlineTimezone (expression : Text) : Bool :=
  "TZ=".toList.isPrefixOf expression || "CRON_TZ=".toList.isPrefixOf expression

inductive CronError (E : Type) where
  | missingSchedule (cronExpr : Text)
  | parseCron (err : E)
  | invalidTimezone (timezone : Text) (err : E)

def parseCronSchedule (cronExpr timezone : Text) :
    Except (CronError E) (lib.Schedule × lib.Location) :=
  if inlineTimezone cronExpr ∧ ' ' ∉ cronExpr then .error (.missingSchedule cronExpr)
  else
    match lib.parse cronExpr with
    | .error err => .error (.parseCron err)
    | .ok sched =>
      match lib.loadLocation timezone with
      | .error err => .error (.invalidTimezone timezone err)
      | .ok loc => .ok (sched, loc)

def hardCap : Nat := 1024

/-- The loop of `NextOccurrencesUTC`, with room for `n` more.  After a zero time Go goes on
in UTC, since the zero time carries no other location; here `next` keeps its own. -/
def enumerate (next : Nat → Nat) (until_ : Nat) : Nat → Nat → List Nat
  | 0, _ => []
  | n + 1, cursor =>
    if until_ < next cursor then [] else next cursor :: enumerate next until_ n (next cursor)

def nextOccurrencesUTC (cronExpr timezone : Text) (after until_ : Nat) :
    Except (CronError E) (List Nat) :=
  match parseCronSchedule lib cronExpr timezone with
  | .error err => .error err
  | .ok (sched, loc) => .ok (enumerate (lib.next sched loc) until_ hardCap after)

def pluginHookSchedulePageSize : Nat := 1024

/-- The loop of `latestPluginHookOccurrence`; `none` when `fuel` ran out. -/
def latestLoop (cronExpr timezone : Text) (until_ : Nat) :
    Nat → (cursor latest count : Nat) → Option (Except (CronError E) (Nat × Nat))
  | 0, _, _, _ => none
  | fuel + 1, cursor, latest, count =>
    match nextOccurrencesUTC lib cronExpr timezone cursor until_ with
    | .error err => some (.error err)
    | .ok occurrences =>
      if occurrences.length = 0 then some (.ok (latest, count))
      else
        let count := count + occurrences.length
        let latest := occurrences.getLastD 0
        if occurrences.length < pluginHookSchedulePageSize ∨ ¬ latest < until_ then
          some (.ok (latest, count))
        else latestLoop cronExpr timezone until_ fuel latest latest count

def latestPluginHookOccurrence (fuel : Nat) (cronExpr timezone : Text) (after until_ : Nat) :
    Option (Except (CronError E) (Nat × Nat)) :=
  latestLoop lib cronExpr timezone until_ fuel after 0 0

/-! ## What the manifest accepts -/

structure HookSchedule where
  cron : Text
  timezone : Text

/-- The error of a field, which is the schedule's own field path with `.cron`
or `.timezone` behind it. -/
inductive ScheduleError (E : Type) where
  | cronEmpty (field : Text)
  | cronInlineTimezone (field : Text)
  | cronNotStandard (field : Text) (err : E)
  | timezoneEmpty (field : Text)
  | timezoneInvalid (field : Text) (err : E)
  | cronTooFrequent (field : Text)

def minimumScheduleInterval : Nat := 5 * 60 * 1000000000

/-- 2024-01-01T00:00:00Z. -/
def windowStart : Nat := 63839664000 * 1000000000

/-- The loop over the 400-day window; `none` when `fuel` ran out. -/
def spaced (next : Nat → Nat) (windowEnd : Nat) : Nat → Nat → Option Bool
  | 0, _ => none
  | fuel + 1, previous =>
    if previous = 0 ∨ windowEnd < previous then some true
    else if next previous = 0 ∨ windowEnd < next previous then some true
    else if next previous - previous < minimumScheduleInterval then some false
    else spaced next windowEnd fuel (next previous)

def validateHookSchedule (fuel : Nat) (field : Text) (schedule : HookSchedule) :
    Option (Except (ScheduleError E) Unit) :=
  let cronField := field ++ ".cron".toList
  let timezoneField := field ++ ".timezone".toList
  let expression := trimSpace schedule.cron
  if expression = [] then some (.error (.cronEmpty cronField))
  else if inlineTimezone expression then some (.error (.cronInlineTimezone cronField))
  else
    match lib.parse expression with
    | .error err => some (.error (.cronNotStandard cronField err))
    | .ok parsed =>
      if trimSpace schedule.timezone = [] then some (.error (.timezoneEmpty timezoneField))
      else
        match lib.loadLocation schedule.timezone with
        | .error err => some (.error (.timezoneInvalid timezoneField err))
        | .ok location =>
          let next := lib.next parsed location
          (spaced next (lib.addDays location windowStart 400) fuel (next windowStart)).map
            fun ok => if ok then .ok () else .error (.cronTooFrequent cronField)

/-- What the library documents: white space around the fields does not matter,
and an answer other than the zero time is the next activation.  After the zero
time nothing is known but that the search gave up. -/
structure Documented (activates : lib.Schedule → lib.Location → Nat → Bool) : Prop where
  fields : ∀ expression sched, inlineTimezone (trimSpace expression) = false →
    lib.parse (trimSpace expression) = .ok sched → lib.parse expression = .ok sched
  next : ∀ sched loc t, lib.next sched loc t ≠ 0 →
    t < lib.next sched loc t ∧ activates sched loc (lib.next sched loc t) = true ∧
    ∀ a, activates sched loc a = true → t < a → lib.next sched loc t ≤ a

/-! ## The activations in a window -/

/-- The activations in `(after, until_]`, in order. -/
def due (activates : Nat → Bool) (after until_ : Nat) : List Nat :=
  (List.range' (after + 1) (until_ - after)).filter activates

variable {activates : Nat → Bool}

theorem mem_due {after until_ a : Nat} :
    a ∈ due activates after until_ ↔ after < a ∧ a ≤ until_ ∧ activates a = true := by
  rw [due, mem_filter, mem_range'_1]
  constructor
  · rintro ⟨hrange, hactive⟩
    exact ⟨by omega, by omega, hactive⟩
  · rintro ⟨hlow, hhigh, hactive⟩
    exact ⟨by omega, hactive⟩

theorem due_sorted (activates : Nat → Bool) (after until_ : Nat) :
    (due activates after until_).Pairwise (· < ·) :=
  Pairwise.filter _ pairwise_lt_range'

theorem due_self (activates : Nat → Bool) (until_ : Nat) : due activates until_ until_ = [] := by
  rw [due, Nat.sub_self]
  rfl

/-- Fewer activations are due behind an activation. -/
theorem due_length_lt {until_ c d : Nat} (h : d ∈ due activates c until_) :
    (due activates d until_).length < (due activates c until_).length := by
  obtain ⟨hc, _, _⟩ := mem_due.mp h
  have hnodup : (d :: due activates d until_).Nodup := by
    refine nodup_cons.mpr ⟨fun hd => ?_, (due_sorted activates d until_).imp Nat.ne_of_lt⟩
    exact Nat.lt_irrefl d (mem_due.mp hd).1
  refine (hnodup.subperm fun a ha => ?_).length_le
  rcases mem_cons.mp ha with rfl | ha
  · exact h
  · obtain ⟨hlow, hhigh, hactive⟩ := mem_due.mp ha
    exact mem_due.mpr ⟨by omega, hhigh, hactive⟩

section Search

variable {activates : Nat → Bool} {next : Nat → Nat}

/-- An answer of the library is the next activation. -/
def Answers (activates : Nat → Bool) (next : Nat → Nat) : Prop :=
  ∀ t, next t ≠ 0 → t < next t ∧ activates (next t) = true ∧
    ∀ a, activates a = true → t < a → next t ≤ a

variable {c : Nat}

/-- The window begins with the library's answer. -/
theorem due_next (hnext : Answers activates next) (until_ : Nat) (hc : next c ≠ 0) :
    due activates c until_ =
      if until_ < next c then [] else next c :: due activates (next c) until_ := by
  obtain ⟨hlt, hactive, hleast⟩ := hnext c hc
  split_ifs with hlimit
  · rw [eq_nil_iff_forall_not_mem]
    intro a ha
    obtain ⟨hlow, hhigh, ha⟩ := mem_due.mp ha
    have := hleast a ha hlow
    omega
  · have hsplit : range' (c + 1) (until_ - c) =
        range' (c + 1) (next c - c - 1) ++ next c :: range' (next c + 1) (until_ - next c) := by
      have hlength : until_ - c = (next c - c - 1) + (1 + (until_ - next c)) := by omega
      have hfirst : c + 1 + (next c - c - 1) = next c := by omega
      rw [hlength, ← range'_append_1, hfirst, Nat.add_comm 1, range'_succ]
    have hempty : (range' (c + 1) (next c - c - 1)).filter activates = [] := by
      rw [filter_eq_nil_iff]
      intro a ha hactive'
      rw [mem_range'_1] at ha
      have := hleast a hactive' (by omega)
      omega
    rw [due, hsplit, filter_append, hempty, nil_append, filter_cons, if_pos hactive]
    rfl

/-- The first `n` searches from `c` on all have an answer. -/
def Answered (next : Nat → Nat) (until_ : Nat) : Nat → Nat → Prop
  | 0, _ => True
  | n + 1, c => next c ≠ 0 ∧ (next c ≤ until_ → Answered next until_ n (next c))

theorem enumerate_eq_iff (hnext : Answers activates next) (until_ n c : Nat) :
    enumerate next until_ n c = (due activates c until_).take n ↔ Answered next until_ n c := by
  induction n generalizing c with
  | zero => simp [enumerate, Answered]
  | succ n ih =>
    by_cases hc : next c = 0
    · have hne : enumerate next until_ (n + 1) c ≠ (due activates c until_).take (n + 1) := by
        intro heq
        have hzero : 0 ∈ (due activates c until_).take (n + 1) := by
          rw [← heq, enumerate, hc, if_neg (Nat.not_lt_zero _)]
          exact mem_cons_self
        have := (mem_due.mp (mem_of_mem_take hzero)).1
        omega
      simp [hne, Answered, hc]
    · rw [due_next hnext _ hc, enumerate, Answered]
      by_cases hlimit : until_ < next c
      · simp [hlimit, hc, Nat.not_le.mpr hlimit]
      · rw [if_neg hlimit, if_neg hlimit, take_succ_cons, cons.injEq, ih]
        simp [hc, Nat.le_of_not_lt hlimit]

variable {until_ n : Nat}

/-- A search without an answer among the first `n`. -/
theorem exists_unanswered (hnext : Answers activates next) (h : ¬ Answered next until_ n c) :
    ∃ d, next d = 0 ∧ (d = c ∨ d ∈ due activates c until_) ∧
      (due activates c until_).length < n + (due activates d until_).length := by
  induction n generalizing c with
  | zero => exact absurd trivial h
  | succ n ih =>
    by_cases hc : next c = 0
    · exact ⟨c, hc, .inl rfl, by omega⟩
    · have hrest : next c ≤ until_ ∧ ¬ Answered next until_ n (next c) := by
        simpa [Answered, hc] using h
      obtain ⟨d, hd, hmem, hlength⟩ := ih hrest.2
      have hdue := due_next hnext until_ hc
      rw [if_neg (Nat.not_lt.mpr hrest.1)] at hdue
      refine ⟨d, hd, .inr ?_, ?_⟩
      · rw [hdue, mem_cons]
        exact hmem
      · rw [hdue, length_cons]
        omega

variable {d : Nat}

theorem Answered.next_ne_zero (hnext : Answers activates next) (h : Answered next until_ n c)
    (hd : d = c ∨ d ∈ due activates c until_)
    (hlength : (due activates c until_).length < n + (due activates d until_).length) :
    next d ≠ 0 := by
  induction n generalizing c with
  | zero =>
    rcases hd with rfl | hd
    · omega
    · have := due_length_lt hd
      omega
  | succ n ih =>
    rcases hd with rfl | hmem
    · exact h.1
    · have hdue := due_next hnext until_ h.1
      by_cases hlimit : until_ < next c
      · rw [if_pos hlimit] at hdue
        rw [hdue] at hmem
        cases hmem
      · rw [if_neg hlimit] at hdue
        rw [hdue] at hmem hlength
        exact ih (h.2 (Nat.le_of_not_lt hlimit)) (mem_cons.mp hmem)
          (by rw [length_cons] at hlength; omega)

/-- The walk over the pages, once the schedule is parsed. -/
def walk (next : Nat → Nat) (until_ : Nat) : Nat → (cursor latest count : Nat) → Option (Nat × Nat)
  | 0, _, _, _ => none
  | fuel + 1, cursor, latest, count =>
    let occurrences := enumerate next until_ hardCap cursor
    if occurrences.length = 0 then some (latest, count)
    else if occurrences.length < hardCap ∨ ¬ occurrences.getLastD 0 < until_ then
      some (occurrences.getLastD 0, count + occurrences.length)
    else walk next until_ fuel (occurrences.getLastD 0) (occurrences.getLastD 0)
      (count + occurrences.length)

variable {x : Nat}

/-- Behind a failed search at `d`, no page is short and none passes `d`. -/
theorem stuck_enumerate (hnext : Answers activates next) (hd : next d = 0)
    (hactive : activates d = true) (hlimit : d ≤ until_) (n : Nat) (hx : x ≤ d) :
    (enumerate next until_ n x).length = n ∧ ∀ y ∈ enumerate next until_ n x, y ≤ d := by
  induction n generalizing x with
  | zero => simp [enumerate]
  | succ n ih =>
    have hstep : next x ≤ d := by
      by_cases hzero : next x = 0
      · omega
      · have hne : x ≠ d := fun h => hzero (h ▸ hd)
        exact (hnext x hzero).2.2 d hactive (by omega)
    obtain ⟨hlength, hbelow⟩ := ih hstep
    rw [enumerate, if_neg (by omega)]
    refine ⟨by rw [length_cons, hlength], fun y hy => ?_⟩
    rcases mem_cons.mp hy with rfl | hy
    · exact hstep
    · exact hbelow y hy

theorem getLastD_mem {l : List Nat} (h : l.length ≠ 0) : l.getLastD 0 ∈ l := by
  rcases eq_nil_or_concat l with rfl | ⟨l', a, rfl⟩
  · exact absurd rfl h
  · simp

variable {fuel latest count : Nat} {result : Nat × Nat}

/-- Such a walk ends only behind a full page that ends at the limit. -/
theorem stuck_walk (hnext : Answers activates next) (hd : next d = 0)
    (hactive : activates d = true) (hlimit : d ≤ until_) (hx : x ≤ d)
    (h : walk next until_ fuel x latest count = some result) :
    d = until_ ∧ count + hardCap ≤ result.2 := by
  induction fuel generalizing x latest count with
  | zero => cases h
  | succ fuel ih =>
    obtain ⟨hlength, hbelow⟩ := stuck_enumerate hnext hd hactive hlimit hardCap hx
    have hlast : (enumerate next until_ hardCap x).getLastD 0 ≤ d :=
      hbelow _ (getLastD_mem (by rw [hlength]; decide))
    simp only [walk, hlength] at h
    rw [if_neg (by decide)] at h
    split_ifs at h with hstop
    · cases h
      exact ⟨by omega, Nat.le_refl _⟩
    · obtain ⟨hend, hcount⟩ := ih hlast h
      exact ⟨hend, by omega⟩

/-- The searches of a walk from `c` have an answer, all but the one behind a
full page that ends at the limit. -/
def AnswersEvery (activates : Nat → Bool) (next : Nat → Nat) (c until_ : Nat) : Prop :=
  ∀ d, (d = c ∨ d ∈ due activates c until_) → next d = 0 →
    d = until_ ∧ d ∈ due activates c until_ ∧ hardCap ∣ (due activates c until_).length

/-- What is due behind one of the activations. -/
theorem due_behind {l l' : List Nat} (h : due activates c until_ = l ++ d :: l') :
    due activates d until_ = l' := by
  have hsorted := due_sorted activates c until_
  rw [h, pairwise_append, pairwise_cons] at hsorted
  obtain ⟨_, ⟨hafter, hl'⟩, hbefore⟩ := hsorted
  have hmem (a : Nat) : a ∈ due activates c until_ ↔ a ∈ l ∨ a = d ∨ a ∈ l' := by
    rw [h, mem_append, mem_cons]
  have hc := (mem_due.mp ((hmem d).mpr (.inr (.inl rfl)))).1
  refine (due_sorted activates d until_).eq_of_mem_iff hl' fun a => ?_
  constructor
  · intro ha
    obtain ⟨hlow, hhigh, hactive⟩ := mem_due.mp ha
    rcases (hmem a).mp (mem_due.mpr ⟨by omega, hhigh, hactive⟩) with hl | rfl | hl
    · have := hbefore a hl d mem_cons_self
      omega
    · omega
    · exact hl
  · intro ha
    obtain ⟨_, hhigh, hactive⟩ := mem_due.mp ((hmem a).mpr (.inr (.inr ha)))
    exact mem_due.mpr ⟨hafter a ha, hhigh, hactive⟩

/-- A full page: its last element and what is due behind it. -/
theorem due_page (hfull : hardCap ≤ (due activates c until_).length) :
    ∃ l d, (due activates c until_).take hardCap = l ++ [d] ∧ d ∈ due activates c until_ ∧
      due activates c until_ = l ++ d :: due activates d until_ ∧ l.length + 1 = hardCap := by
  have hlength : ((due activates c until_).take hardCap).length = hardCap :=
    length_take_of_le hfull
  rcases eq_nil_or_concat ((due activates c until_).take hardCap) with hnil | ⟨l, d, hl⟩
  · rw [hnil] at hlength
    cases hlength
  · rw [concat_eq_append] at hl
    have hsplit : due activates c until_ = l ++ d :: (due activates c until_).drop hardCap := by
      calc due activates c until_
          = (due activates c until_).take hardCap ++ (due activates c until_).drop hardCap :=
            (take_append_drop hardCap _).symm
        _ = l ++ d :: (due activates c until_).drop hardCap := by
            rw [hl, append_assoc, singleton_append]
    refine ⟨l, d, hl, ?_, ?_, ?_⟩
    · rw [hsplit]
      simp
    · rw [due_behind hsplit]
      exact hsplit
    · rw [← hlength, hl, length_append, length_singleton]

section

variable (hnext : Answers activates next) (h : AnswersEvery activates next c until_)
include hnext h

theorem AnswersEvery.answered : Answered next until_ hardCap c := by
  by_contra hnot
  obtain ⟨d, hd, hmem, hlength⟩ := exists_unanswered hnext hnot
  obtain ⟨rfl, hdue, hdvd⟩ := h d hmem hd
  rw [due_self, length_nil, Nat.add_zero] at hlength
  have := Nat.le_of_dvd (length_pos_of_mem hdue) hdvd
  omega

/-- Where every search has an answer the walk ends in the last activation and
their number. -/
theorem walk_of_answersEvery (latest count : Nat) :
    ∃ fuel, walk next until_ fuel c latest count =
      some ((due activates c until_).getLastD latest, count + (due activates c until_).length) := by
  induction hn : (due activates c until_).length using Nat.strong_induction_on
    generalizing c latest count with
  | _ n ih =>
    have hpage := (enumerate_eq_iff hnext until_ hardCap c).mpr (h.answered hnext)
    by_cases hfull : hardCap ≤ (due activates c until_).length
    · obtain ⟨l, d, htake, hmem, hsplit, hlength⟩ := due_page hfull
      have hlast : (l ++ [d]).getLastD 0 = d := by simp
      have hpagelength : (l ++ [d]).length = hardCap := by
        rw [length_append, length_singleton, hlength]
      have hcount : (due activates c until_).length
          = hardCap + (due activates d until_).length := by
        rw [hsplit, length_append, length_cons]
        omega
      have hend : (due activates c until_).getLastD latest
          = (due activates d until_).getLastD d := by
        rw [hsplit]
        simp [getLastD_eq_getLast?, getLast?_append, getLast?_cons]
      by_cases hbefore : d < until_
      · have hrest : AnswersEvery activates next d until_ := by
          intro e he hzero
          have hin : e ∈ due activates c until_ := by
            rw [hsplit]
            rcases he with rfl | he
            · simp
            · simp [he]
          obtain ⟨heq, _, hdvd⟩ := h e (.inr hin) hzero
          rcases he with rfl | he
          · omega
          · rw [hcount] at hdvd
            exact ⟨heq, he, (Nat.dvd_add_right (Nat.dvd_refl hardCap)).mp hdvd⟩
        obtain ⟨fuel, hwalk⟩ := ih _ (by rw [← hn, hcount]; simp [hardCap]) hrest d
          (count + hardCap) rfl
        refine ⟨fuel + 1, ?_⟩
        simp only [walk, hpage, htake, hlast, hpagelength]
        rw [if_neg (by decide), if_neg (by simpa using hbefore), hwalk, ← hn, hend, hcount,
          Nat.add_assoc]
      · have hnil : due activates d until_ = [] := by
          have heq : d = until_ := by
            have := (mem_due.mp hmem).2.1
            omega
          rw [heq, due_self]
        refine ⟨1, ?_⟩
        simp only [walk, hpage, htake, hlast, hpagelength]
        rw [if_neg (by decide), if_pos (.inr hbefore), ← hn, hend, hcount, hnil]
        rfl
    · have htake : (due activates c until_).take hardCap = due activates c until_ :=
        take_of_length_le (by omega)
      refine ⟨1, ?_⟩
      simp only [walk, hpage, htake, hn]
      by_cases hzero : n = 0
      · rw [if_pos hzero, eq_nil_of_length_eq_zero (hn.trans hzero), hzero]
        rfl
      · rw [if_neg hzero, if_pos (.inl (by omega))]
        rcases eq_nil_or_concat (due activates c until_) with hnil | ⟨l, d, hl⟩
        · rw [hnil] at hn
          exact absurd hn.symm hzero
        · rw [hl]
          simp

end

/-- A walk that ends with the number of activations had an answer to every
search. -/
theorem answersEvery_of_walk (hnext : Answers activates next)
    (hstart : Answered next until_ hardCap c ∨ activates c = true ∧ c ≤ until_)
    (h : walk next until_ fuel c latest count = some result)
    (hresult : result.2 = count + (due activates c until_).length) :
    AnswersEvery activates next c until_ := by
  induction fuel generalizing c latest count with
  | zero => cases h
  | succ fuel ih =>
    have hanswered : Answered next until_ hardCap c := by
      by_contra hnot
      obtain ⟨hactive, hlimit⟩ := hstart.resolve_left hnot
      obtain ⟨d, hd, hmem, hlength⟩ := exists_unanswered hnext hnot
      have hdactive : activates d = true ∧ d ≤ until_ ∧ c ≤ d := by
        rcases hmem with rfl | hmem
        · exact ⟨hactive, hlimit, Nat.le_refl _⟩
        · obtain ⟨hlow, hhigh, hdactive⟩ := mem_due.mp hmem
          exact ⟨hdactive, hhigh, hlow.le⟩
      obtain ⟨hend, hcount⟩ := stuck_walk hnext hd hdactive.1 hdactive.2.1 hdactive.2.2 h
      rw [hend, due_self, length_nil] at hlength
      omega
    have hpage := (enumerate_eq_iff hnext until_ hardCap c).mpr hanswered
    have hfirst {d : Nat} (hd : d = c ∨ d ∈ due activates c until_)
        (hlength : (due activates c until_).length < hardCap + (due activates d until_).length) :
        next d ≠ 0 :=
      hanswered.next_ne_zero hnext hd hlength
    intro e he hzero
    by_cases hfull : hardCap ≤ (due activates c until_).length
    · obtain ⟨l, d, htake, hmem, hsplit, hlength⟩ := due_page hfull
      have hcount : (due activates c until_).length
          = hardCap + (due activates d until_).length := by
        rw [hsplit, length_append, length_cons]
        omega
      have hlow : d ≤ e := by
        by_contra hlt
        refine hfirst he ?_ hzero
        rw [hcount, Nat.add_lt_add_iff_left]
        exact due_length_lt
          (mem_due.mpr ⟨by omega, (mem_due.mp hmem).2.1, (mem_due.mp hmem).2.2⟩)
      have hc := (mem_due.mp hmem).1
      have hedue : e ∈ due activates c until_ := he.resolve_left (by omega)
      have hlast : (l ++ [d]).getLastD 0 = d := by simp
      have hpagelength : (l ++ [d]).length = hardCap := by
        rw [length_append, length_singleton, hlength]
      simp only [walk, hpage, htake, hlast, hpagelength] at h
      rw [if_neg (by decide)] at h
      split_ifs at h with hstop
      · have hd : d = until_ := by
          have := (mem_due.mp hmem).2.1
          omega
        have hlimit := (mem_due.mp hedue).2.1
        refine ⟨by omega, hedue, ?_⟩
        rw [hcount, hd, due_self]
        exact Nat.dvd_refl hardCap
      · have hrest := ih (.inr ⟨(mem_due.mp hmem).2.2, (mem_due.mp hmem).2.1⟩) h
          (by rw [hresult, hcount, Nat.add_assoc])
        have he' : e = d ∨ e ∈ due activates d until_ := by
          rcases Nat.eq_or_lt_of_le hlow with heq | hlt
          · exact .inl heq.symm
          · exact .inr (mem_due.mpr ⟨hlt, (mem_due.mp hedue).2.1, (mem_due.mp hedue).2.2⟩)
        obtain ⟨heq, _, hdvd⟩ := hrest e he' hzero
        refine ⟨heq, hedue, ?_⟩
        rw [hcount]
        exact Nat.dvd_add (Nat.dvd_refl hardCap) hdvd
    · refine absurd hzero (hfirst he ?_)
      omega

end Search

/-! ## Accepted schedules -/

theorem inlineTimezone_trimSpace {expression : Text} (h : inlineTimezone expression = true) :
    inlineTimezone (trimSpace expression) = true := by
  simp only [inlineTimezone, Bool.or_eq_true, isPrefixOf_iff_prefix] at h ⊢
  refine h.imp (fun h => ?_) fun h => ?_
  · exact isPrefix_trimSpace (a := 'T') (c := '=') (p := "Z".toList) h (by decide) (by decide)
  · exact isPrefix_trimSpace (a := 'C') (c := '=') (p := "RON_TZ".toList) h (by decide) (by decide)

variable {lib} {activates : lib.Schedule → lib.Location → Nat → Bool}

theorem parse_of_accepted (hlib : Documented lib activates) {fuel : Nat} {field : Text}
    {schedule : HookSchedule} (h : validateHookSchedule lib fuel field schedule = some (.ok ())) :
    ∃ sched loc, parseCronSchedule lib schedule.cron schedule.timezone = .ok (sched, loc) := by
  unfold validateHookSchedule at h
  by_cases hempty : trimSpace schedule.cron = []
  · simp [hempty] at h
  by_cases hinline : inlineTimezone (trimSpace schedule.cron) = true
  · simp [hempty, hinline] at h
  cases hparse : lib.parse (trimSpace schedule.cron) with
  | error err => simp [hempty, hinline, hparse] at h
  | ok sched =>
    by_cases hzone : trimSpace schedule.timezone = []
    · simp [hempty, hinline, hparse, hzone] at h
    cases hload : lib.loadLocation schedule.timezone with
    | error err => simp [hempty, hinline, hparse, hzone, hload] at h
    | ok loc =>
      have hfields := hlib.fields schedule.cron sched (by simpa using hinline) hparse
      have hplain : ¬ (inlineTimezone schedule.cron = true ∧ ' ' ∉ schedule.cron) :=
        fun hboth => hinline (inlineTimezone_trimSpace hboth.1)
      refine ⟨sched, loc, ?_⟩
      rw [parseCronSchedule, if_neg hplain, hfields]
      simp only [hload]

theorem latestLoop_eq {cronExpr timezone : Text} {sched : lib.Schedule} {loc : lib.Location}
    (hparse : parseCronSchedule lib cronExpr timezone = .ok (sched, loc)) (until_ fuel : Nat)
    (cursor latest count : Nat) :
    latestLoop lib cronExpr timezone until_ fuel cursor latest count =
      (walk (lib.next sched loc) until_ fuel cursor latest count).map .ok := by
  induction fuel generalizing cursor latest count with
  | zero => rfl
  | succ fuel ih =>
    have hpage : pluginHookSchedulePageSize = hardCap := rfl
    simp only [latestLoop, nextOccurrencesUTC, hparse, walk, ih, hpage]
    split_ifs <;> rfl

/-- The occurrences are the activations, up to the cap, and the walk ends in
the last of them with their number. -/
def Exact (lib : CronLibrary E) (activates : Nat → Bool) (schedule : HookSchedule)
    (after until_ : Nat) : Prop :=
  nextOccurrencesUTC lib schedule.cron schedule.timezone after until_
      = .ok ((due activates after until_).take hardCap) ∧
  ∃ fuel, latestPluginHookOccurrence lib fuel schedule.cron schedule.timezone after until_
      = some (.ok ((due activates after until_).getLastD 0, (due activates after until_).length))

/-- A schedule the manifest accepts is enumerated exactly where the library
answers every search, but the one behind a full page that ends at the limit. -/
theorem latest_exact_iff (hlib : Documented lib activates) (fuel : Nat) (field : Text)
    (schedule : HookSchedule)
    (haccept : validateHookSchedule lib fuel field schedule = some (.ok ()))
    (after until_ : Nat) :
    ∃ sched loc, parseCronSchedule lib schedule.cron schedule.timezone = .ok (sched, loc) ∧
      (Exact lib (activates sched loc) schedule after until_ ↔
        AnswersEvery (activates sched loc) (lib.next sched loc) after until_) := by
  obtain ⟨sched, loc, hparse⟩ := parse_of_accepted hlib haccept
  have hnext : Answers (activates sched loc) (lib.next sched loc) := hlib.next sched loc
  refine ⟨sched, loc, hparse, ?_⟩
  simp only [Exact, nextOccurrencesUTC, hparse, latestPluginHookOccurrence, latestLoop_eq hparse,
    Except.ok.injEq, enumerate_eq_iff hnext]
  constructor
  · rintro ⟨hanswered, fuel, hwalk⟩
    obtain ⟨result, hwalk, hresult⟩ := Option.map_eq_some_iff.mp hwalk
    cases hresult
    exact answersEvery_of_walk hnext (.inl hanswered) hwalk (Nat.zero_add _).symm
  · intro h
    obtain ⟨fuel, hwalk⟩ := walk_of_answersEvery hnext h 0 0
    refine ⟨h.answered hnext, fuel, ?_⟩
    rw [hwalk, Nat.zero_add]
    rfl

/-- A week, which the zero time begins with a Monday. -/
def week : Nat := 7 * 86400 * 1000000000

/-- The library at `0 0 * * 1` in UTC. -/
def weekly : CronLibrary Unit where
  Schedule := Unit
  Location := Unit
  parse := fun _ => .ok ()
  loadLocation := fun _ => .ok ()
  next := fun _ _ t => (t / week + 1) * week
  addDays := fun _ t days => t + days * (86400 * 1000000000)

/-- The multiples of a period, each the next one's predecessor. -/
theorem next_multiple {period : Nat} (hperiod : 0 < period) :
    Answers (fun t => t % period = 0) fun t => (t / period + 1) * period := by
  intro t _
  refine ⟨Nat.lt_mul_of_div_lt (Nat.lt_succ_self _) hperiod, by simp, fun a ha hlt => ?_⟩
  obtain ⟨k, rfl⟩ := Nat.dvd_of_mod_eq_zero (of_decide_eq_true ha)
  rw [Nat.mul_comm period k]
  exact Nat.mul_le_mul_right period (Nat.div_lt_of_lt_mul hlt)

theorem latest_exact_iff_weekly :
    ∃ sched loc, parseCronSchedule weekly "0 0 * * 1".toList "UTC".toList = .ok (sched, loc) ∧
      (Exact weekly (fun t => t % week = 0) ⟨"0 0 * * 1".toList, "UTC".toList⟩ 3 week ↔
        AnswersEvery (fun t => t % week = 0) (weekly.next sched loc) 3 week) := by
  have hspaced : spaced (weekly.next () ()) (weekly.addDays () windowStart 400) 60
      (weekly.next () () windowStart) = some true := by decide +kernel
  have hlib : Documented weekly fun _ _ t => t % week = 0 :=
    ⟨fun _ _ _ _ => rfl, fun _ _ => next_multiple (by decide)⟩
  have haccept : validateHookSchedule weekly 60 "hooks[0].schedule".toList
      ⟨"0 0 * * 1".toList, "UTC".toList⟩ = some (.ok ()) := by
    have hmap := congrArg (Option.map fun ok => if ok then Except.ok () else
      Except.error (ScheduleError.cronTooFrequent (E := Unit)
        ("hooks[0].schedule".toList ++ ".cron".toList))) hspaced
    exact hmap
  exact latest_exact_iff hlib 60 _ _ haccept 3 week

/-- The library at `0 0 30 2 *`: no search has an answer. -/
def never : CronLibrary Unit where
  Schedule := Unit
  Location := Unit
  parse := fun _ => .ok ()
  loadLocation := fun _ => .ok ()
  next := fun _ _ _ => 0
  addDays := fun _ t days => t + days * (86400 * 1000000000)

theorem latest_exact_fails :
    Documented never (fun _ _ _ => false) ∧
    validateHookSchedule never 1 "hooks[0].schedule".toList
      ⟨"0 0 30 2 *".toList, "UTC".toList⟩ = some (.ok ()) ∧
    ¬ Exact never (fun _ => false) ⟨"0 0 30 2 *".toList, "UTC".toList⟩ 5 10 := by
  have hnever : Answers (fun _ => false) (never.next () ()) := fun _ h => absurd rfl h
  refine ⟨⟨fun _ _ _ _ => rfl, fun _ _ => hnever⟩, rfl, fun h => ?_⟩
  have hparse : parseCronSchedule never "0 0 30 2 *".toList "UTC".toList = .ok ((), ()) := rfl
  have hpage := h.1
  simp only [nextOccurrencesUTC, hparse, Except.ok.injEq] at hpage
  exact ((enumerate_eq_iff hnever 10 hardCap 5).mp hpage).1 rfl

end ClawMessenger.Ports.HookOccurrences

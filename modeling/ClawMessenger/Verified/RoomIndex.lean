import ClawMessenger.Verified.Lookup

/-!
# Groups without empty groups

A map from a key to the members of its group.  A group comes into being with
its first member and goes with its last one; `join` and `leave` say when they
have done so.  `leaveAll` takes one member out of several groups and collects
the ones that have gone.
-/

namespace ClawMessenger.Verified.RoomIndex

open List

open OrderedMap (get?_erase_ne get?_erase_self get?_set get?_set_cases has)

variable {κ ι : Type*} [DecidableEq κ]

abbrev Rooms (κ ι : Type*) [DecidableEq κ] := OrderedMap κ (List ι)

def members (rooms : Rooms κ ι) (key : κ) : List ι := (rooms.get? key).getD []

/-- The first component tells whether the group is new. -/
def join [DecidableEq ι] (rooms : Rooms κ ι) (key : κ) (member : ι) : Bool × Rooms κ ι :=
  match rooms.get? key with
  | none => (true, rooms.set key [member])
  | some room => (false, rooms.set key (if member ∈ room then room else room ++ [member]))

/-- The first component tells whether the group has gone. -/
def leave [DecidableEq ι] (rooms : Rooms κ ι) (key : κ) (member : ι) : Bool × Rooms κ ι :=
  match rooms.get? key with
  | none => (false, rooms)
  | some room =>
    let rest := room.filter fun other => other ≠ member
    if rest = [] then (true, rooms.erase key) else (false, rooms.set key rest)

def leaveAll [DecidableEq ι] (rooms : Rooms κ ι) (keys : List κ) (member : ι) : List κ × Rooms κ ι :=
  match keys with
  | [] => ([], rooms)
  | key :: keys =>
    let left := leave rooms key member
    let rest := leaveAll left.2 keys member
    (if left.1 then key :: rest.1 else rest.1, rest.2)

/-- No group is empty. -/
def NoneEmpty (rooms : Rooms κ ι) : Prop := ∀ key room, rooms.get? key = some room → room ≠ []

variable {rooms : Rooms κ ι} {key k : κ} {i : ι}

theorem noneEmpty_empty : NoneEmpty (∅ : Rooms κ ι) := nofun

theorem members_set (room : List ι) :
    members (rooms.set key room) k = if k = key then room else members rooms k := by
  unfold members
  rw [get?_set]
  by_cases hk : k = key
  · rw [if_pos hk, if_pos hk]
    rfl
  · rw [if_neg hk, if_neg hk]

theorem members_of_get? {room : List ι} (h : rooms.get? key = some room) :
    members rooms key = room := by
  rw [members, h]
  rfl

theorem has_of_mem (h : i ∈ members rooms k) : rooms.has k = true := by
  unfold members at h
  unfold has
  cases hget : rooms.get? k with
  | none =>
    rw [hget] at h
    cases h
  | some room => rfl

theorem has_set (room : List ι) : (rooms.set key room).has k = (decide (k = key) || rooms.has k) := by
  unfold has
  rw [get?_set]
  by_cases hk : k = key
  · simp [hk]
  · simp [hk]

/-! ## Joining -/

variable [DecidableEq ι] {member : ι}

theorem mem_join : i ∈ members (join rooms key member).2 k ↔
    (k = key ∧ i = member) ∨ i ∈ members rooms k := by
  unfold join
  cases hget : rooms.get? key with
  | none =>
    have hnone : members rooms key = [] := by rw [members, hget]; rfl
    rw [members_set]
    by_cases hk : k = key
    · rw [if_pos hk, hk, hnone]
      simp
    · rw [if_neg hk]
      simp [hk]
  | some room =>
    have hroom := members_of_get? hget
    rw [members_set]
    by_cases hk : k = key
    · rw [if_pos hk, hk, hroom]
      by_cases hmem : member ∈ room
      · rw [if_pos hmem]
        constructor
        · exact .inr
        · rintro (⟨_, rfl⟩ | hold)
          · exact hmem
          · exact hold
      · rw [if_neg hmem, mem_append, mem_singleton]
        tauto
    · rw [if_neg hk]
      simp [hk]

theorem NoneEmpty.join (h : NoneEmpty rooms) : NoneEmpty (join rooms key member).2 := by
  intro k room hget
  unfold RoomIndex.join at hget
  cases hkey : rooms.get? key with
  | none =>
    rw [hkey] at hget
    rcases get?_set_cases hget with ⟨_, rfl⟩ | ⟨_, hold⟩
    · exact cons_ne_nil _ _
    · exact h k room hold
  | some old =>
    rw [hkey] at hget
    rcases get?_set_cases hget with ⟨_, rfl⟩ | ⟨_, hold⟩
    · by_cases hmem : member ∈ old
      · rw [if_pos hmem]
        exact h key old hkey
      · rw [if_neg hmem]
        exact append_ne_nil_of_right_ne_nil _ (cons_ne_nil _ _)
    · exact h k room hold

theorem join_new : (join rooms key member).1 = !rooms.has key := by
  unfold join has
  cases rooms.get? key with
  | none | some room => rfl

theorem has_join : (join rooms key member).2.has k = (decide (k = key) || rooms.has k) := by
  unfold join
  cases rooms.get? key with
  | none | some room => exact has_set _

/-! ## Leaving -/

theorem mem_leave : i ∈ members (leave rooms key member).2 k ↔
    i ∈ members rooms k ∧ ¬ (k = key ∧ i = member) := by
  unfold leave
  cases hget : rooms.get? key with
  | none =>
    have hnone : members rooms key = [] := by rw [members, hget]; rfl
    constructor
    · intro hmem
      refine ⟨hmem, ?_⟩
      rintro ⟨rfl, _⟩
      rw [hnone] at hmem
      cases hmem
    · exact And.left
  | some room =>
    have hroom := members_of_get? hget
    have hfilter : i ∈ room.filter (fun other => other ≠ member) ↔ i ∈ room ∧ i ≠ member := by
      rw [mem_filter, decide_eq_true_eq]
    dsimp only
    by_cases hrest : room.filter (fun other => other ≠ member) = []
    · rw [if_pos hrest]
      rw [hrest] at hfilter
      by_cases hk : k = key
      · subst hk
        have hgone : members (rooms.erase k) k = [] := by
          rw [members, get?_erase_self]
          rfl
        rw [hgone, hroom]
        constructor
        · nofun
        · rintro ⟨hmem, hne⟩
          exact hfilter.mpr ⟨hmem, fun heq => hne ⟨rfl, heq⟩⟩
      · rw [members, get?_erase_ne _ hk]
        exact ⟨fun hmem => ⟨hmem, fun habsurd => hk habsurd.1⟩, And.left⟩
    · rw [if_neg hrest]
      rw [members_set]
      by_cases hk : k = key
      · rw [if_pos hk, hk, hroom, hfilter]
        simp
      · rw [if_neg hk]
        simp [hk]

theorem NoneEmpty.leave (h : NoneEmpty rooms) : NoneEmpty (leave rooms key member).2 := by
  intro k room hget
  unfold RoomIndex.leave at hget
  cases hkey : rooms.get? key with
  | none =>
    rw [hkey] at hget
    exact h k room hget
  | some old =>
    rw [hkey] at hget
    dsimp only at hget
    by_cases hrest : old.filter (fun other => other ≠ member) = []
    · rw [if_pos hrest] at hget
      exact h k room (OrderedMap.get?_erase_cases hget).2
    · rw [if_neg hrest] at hget
      rcases get?_set_cases hget with ⟨_, rfl⟩ | ⟨_, hold⟩
      · exact hrest
      · exact h k room hold

theorem has_leave : (leave rooms key member).2.has k =
    (rooms.has k && !(decide (k = key) && (leave rooms key member).1)) := by
  unfold leave
  cases hget : rooms.get? key with
  | none => simp
  | some room =>
    have hhas : rooms.has key = true := by
      rw [has, hget]
      rfl
    dsimp only
    by_cases hrest : room.filter (fun other => other ≠ member) = []
    · rw [if_pos hrest]
      unfold has
      by_cases hk : k = key
      · rw [hk, get?_erase_self]
        simp
      · rw [get?_erase_ne _ hk]
        simp [hk]
    · rw [if_neg hrest]
      rw [has_set]
      by_cases hk : k = key
      · simp [hk, hhas]
      · simp [hk]

/-! ## Leaving several groups -/

theorem mem_leaveAll {keys : List κ} : i ∈ members (leaveAll rooms keys member).2 k ↔
    i ∈ members rooms k ∧ ¬ (k ∈ keys ∧ i = member) := by
  induction keys generalizing rooms with
  | nil => simp [leaveAll]
  | cons key keys ih =>
    rw [leaveAll]
    rw [ih, mem_leave, mem_cons]
    tauto

theorem NoneEmpty.leaveAll (h : NoneEmpty rooms) (keys : List κ) :
    NoneEmpty (leaveAll rooms keys member).2 := by
  induction keys generalizing rooms with
  | nil => exact h
  | cons key keys ih => exact ih h.leave

/-- The groups that have gone are those that were reported. -/
theorem has_leaveAll {keys : List κ} : (leaveAll rooms keys member).2.has k =
    (rooms.has k && !decide (k ∈ (leaveAll rooms keys member).1)) := by
  induction keys generalizing rooms with
  | nil => simp [leaveAll]
  | cons key keys ih =>
    rw [leaveAll]
    rw [ih, has_leave]
    by_cases hgone : (leave rooms key member).1 = true
    · rw [if_pos hgone, hgone]
      by_cases hk : k = key
      · simp [hk]
      · simp [hk]
    · rw [if_neg hgone]
      simp [hgone]

end ClawMessenger.Verified.RoomIndex

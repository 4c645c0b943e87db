import Mathlib

/-!
# Atomic file writes

`atomicWriteJson` writes a temporary file beside the target, syncs it, renames
it over the target and syncs the directory.  `WriteFaults` says for each system
call whether it fails and how, so that one function covers every point of
failure.

The file is old or new, never in between, and a success means the new one
(`atomicWriteJson_spec`).  A failure means the old one unless it is the
directory that cannot be synced: by then the rename has happened.
-/

namespace ClawMessenger.Ports.AtomicJson

inductive Platform where
  | win32
  | posix
deriving DecidableEq, Repr

/-- The error codes the module tells apart. -/
inductive ErrorCode where
  | eacces
  | eperm
  | einval
  | enotsup
  | eisdir
  | other
deriving DecidableEq, Repr

inductive AtomicJsonErrorCode where
  | atomicWriteFailed

/-- The target and the temporary file: absent, or present with what is in it. -/
structure Files (α : Type*) where
  target : Option α
  temporary : Option (Option α) := none

/-- How each system call of a write fails, if it does. -/
structure WriteFaults where
  mkdir : Option ErrorCode := none
  chmod : Option ErrorCode := none
  openTemporary : Option ErrorCode := none
  writeFile : Option ErrorCode := none
  sync : Option ErrorCode := none
  close : Option ErrorCode := none
  /-- By attempt. -/
  rename : Nat → Option ErrorCode := fun _ => none
  openDirectory : Option ErrorCode := none
  syncDirectory : Option ErrorCode := none
  unlink : Option ErrorCode := none

def retryable (code : ErrorCode) : Bool := code == .eacces || code == .eperm

/-- The loop of `atomicRename` from an attempt on, with `remaining` attempts left. -/
def renameFrom (script : Nat → Option ErrorCode) (attempt : Nat) : Nat → Except ErrorCode Unit
  | 0 => .ok ()
  | remaining + 1 =>
    match script attempt with
    | none => .ok ()
    | some code =>
      if !retryable code || remaining == 0 then .error code
      else renameFrom script (attempt + 1) remaining

def renameAttempts : Platform → Nat
  | .win32 => 3
  | .posix => 1

def atomicRename (platform : Platform) (faults : WriteFaults) : Except ErrorCode Unit :=
  renameFrom faults.rename 0 (renameAttempts platform)

def unsupportedDirectorySync (code : ErrorCode) (platform : Platform) : Bool :=
  code == .einval || code == .enotsup || code == .eisdir
    || (platform == .win32 && code == .eperm)

/-- Opening and syncing the directory; closing it never fails the call. -/
def syncDirectory (platform : Platform) (faults : WriteFaults) : Except ErrorCode Unit :=
  match faults.openDirectory.or faults.syncDirectory with
  | none => .ok ()
  | some code => if unsupportedDirectorySync code platform then .ok () else .error code

section Write

variable {α : Type*}

/-- The `catch` block: drop the temporary file, if that works. -/
def discard (faults : WriteFaults) (files : Files α) : Files α :=
  if faults.unlink.isSome then files else { files with temporary := none }

section

variable (platform : Platform) (faults : WriteFaults)

def atomicWriteJson (value : α) (files : Files α) :
    Except AtomicJsonErrorCode Unit × Files α :=
  if faults.mkdir.isSome then (.error .atomicWriteFailed, files)
  else if platform ≠ .win32 ∧ faults.chmod.isSome then (.error .atomicWriteFailed, files)
  else if faults.openTemporary.isSome then (.error .atomicWriteFailed, files)
  else if faults.writeFile.isSome then
    (.error .atomicWriteFailed, discard faults { files with temporary := some none })
  else if faults.sync.isSome || faults.close.isSome then
    (.error .atomicWriteFailed, discard faults { files with temporary := some (some value) })
  else
    match atomicRename platform faults with
    | .error _ =>
      (.error .atomicWriteFailed, discard faults { files with temporary := some (some value) })
    | .ok () =>
      match syncDirectory platform faults with
      | .error _ => (.error .atomicWriteFailed, ⟨some value, none⟩)
      | .ok () => (.ok (), ⟨some value, none⟩)

/-- Everything up to and including the rename succeeds. -/
def renamed : Bool :=
  faults.mkdir.isNone && (platform == .win32 || faults.chmod.isNone)
    && faults.openTemporary.isNone && faults.writeFile.isNone && faults.sync.isNone
    && faults.close.isNone && (atomicRename platform faults).isOk

/-- The one late failure: the rename succeeds and the directory cannot be synced. -/
def failsAfterRename : Bool :=
  renamed platform faults && !(syncDirectory platform faults).isOk

end

@[simp] theorem discard_target (faults : WriteFaults) (files : Files α) :
    (discard faults files).target = files.target := by
  unfold discard
  split <;> rfl

variable {platform : Platform} {faults : WriteFaults}

theorem atomicWriteJson_of_not_renamed (h : renamed platform faults = false) (value : α)
    (files : Files α) :
    (atomicWriteJson platform faults value files).1 = .error .atomicWriteFailed ∧
      (atomicWriteJson platform faults value files).2.target = files.target := by
  unfold atomicWriteJson
  by_cases hmkdir : faults.mkdir.isSome = true
  · rw [if_pos hmkdir]
    exact ⟨rfl, rfl⟩
  · rw [if_neg hmkdir]
    by_cases hchmod : platform ≠ .win32 ∧ faults.chmod.isSome = true
    · rw [if_pos hchmod]
      exact ⟨rfl, rfl⟩
    · rw [if_neg hchmod]
      by_cases hopen : faults.openTemporary.isSome = true
      · rw [if_pos hopen]
        exact ⟨rfl, rfl⟩
      · rw [if_neg hopen]
        by_cases hwrite : faults.writeFile.isSome = true
        · rw [if_pos hwrite]
          exact ⟨rfl, discard_target _ _⟩
        · rw [if_neg hwrite]
          by_cases hsync : (faults.sync.isSome || faults.close.isSome) = true
          · rw [if_pos hsync]
            exact ⟨rfl, discard_target _ _⟩
          · rw [if_neg hsync]
            cases hrename : atomicRename platform faults with
            | error code => exact ⟨rfl, discard_target _ _⟩
            | ok _ =>
              have hrenamed : renamed platform faults = true := by
                simp only [Bool.or_eq_true, not_or, Bool.not_eq_true,
                  Option.isSome_eq_false_iff] at hmkdir hopen hwrite hsync
                have hmode : (platform == .win32 || faults.chmod.isNone) = true := by
                  by_cases hwin : platform = .win32
                  · simp [hwin]
                  · have hnone : faults.chmod.isSome = false := by
                      rw [← Bool.not_eq_true]
                      exact fun hsome => hchmod ⟨hwin, hsome⟩
                    rw [Option.isSome_eq_false_iff] at hnone
                    simp [hnone]
                simp [renamed, hmkdir, hmode, hopen, hwrite, hsync, hrename, Except.isOk,
                  Except.toBool]
              rw [h] at hrenamed
              cases hrenamed

theorem atomicWriteJson_of_renamed (h : renamed platform faults = true) (value : α)
    (files : Files α) :
    (atomicWriteJson platform faults value files).2.target = some value ∧
      ((atomicWriteJson platform faults value files).1 = .ok () ↔
        failsAfterRename platform faults = false) := by
  have hparts := h
  simp only [renamed, Bool.and_eq_true, Bool.or_eq_true, beq_iff_eq, Option.isNone_iff_eq_none]
    at hparts
  obtain ⟨⟨⟨⟨⟨⟨hmkdir, hmode⟩, hopen⟩, hwrite⟩, hsync⟩, hclose⟩, hrename⟩ := hparts
  have hchmod : ¬(platform ≠ .win32 ∧ faults.chmod.isSome = true) := by
    rintro ⟨hwin, hsome⟩
    rcases hmode with hplatform | hnone
    · exact hwin hplatform
    · rw [hnone] at hsome
      cases hsome
  unfold atomicWriteJson failsAfterRename
  rw [h]
  simp only [hmkdir, hopen, hwrite, hsync, hclose, Option.isSome_none, Bool.or_self,
    Bool.false_eq_true, if_false, if_neg hchmod, Bool.true_and]
  cases hr : atomicRename platform faults with
  | error code =>
    rw [hr] at hrename
    cases hrename
  | ok _ =>
    cases hd : syncDirectory platform faults with
    | error code | ok _ => simp [Except.isOk, Except.toBool]

/-- The write succeeds with the new file, fails with the old one, or fails with
the new one after the rename. -/
theorem atomicWriteJson_spec (platform : Platform) (faults : WriteFaults) (value : α)
    (files : Files α) :
    ((atomicWriteJson platform faults value files).1 = .ok () ∧
        failsAfterRename platform faults = false ∧
        (atomicWriteJson platform faults value files).2.target = some value) ∨
    ((atomicWriteJson platform faults value files).1 = .error .atomicWriteFailed ∧
      ((failsAfterRename platform faults = false ∧
          (atomicWriteJson platform faults value files).2.target = files.target) ∨
        (failsAfterRename platform faults = true ∧
          (atomicWriteJson platform faults value files).2.target = some value))) := by
  cases hrenamed : renamed platform faults with
  | false =>
    obtain ⟨herror, htarget⟩ := atomicWriteJson_of_not_renamed hrenamed value files
    have hlate : failsAfterRename platform faults = false := by
      rw [failsAfterRename, hrenamed, Bool.false_and]
    exact .inr ⟨herror, .inl ⟨hlate, htarget⟩⟩
  | true =>
    obtain ⟨htarget, hok⟩ := atomicWriteJson_of_renamed hrenamed value files
    cases hlate : failsAfterRename platform faults with
    | false => exact .inl ⟨hok.mpr hlate, rfl, htarget⟩
    | true =>
      refine .inr ⟨?_, .inr ⟨rfl, htarget⟩⟩
      cases hresult : (atomicWriteJson platform faults value files).1 with
      | ok _ =>
        rw [hok.mp hresult] at hlate
        cases hlate
      | error code =>
        cases code
        rfl

end Write

end ClawMessenger.Ports.AtomicJson

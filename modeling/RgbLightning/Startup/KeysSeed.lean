import RgbLightning.Base.Runs
import RgbLightning.Node.Types

/-! # The key seed

A start reads the seed from its file, or makes a new one and writes it. The file is
emptied when it is created. A start can be stopped between any two effects on the file;
bytes that are lost because they were not synced are bytes never written.
-/
namespace RgbLightning.Startup
open Runs

/-- The contents of `keys_seed`, if there is such a file. -/
abbrev SeedFile := Option (List UInt8)

inductive SeedEffect where
  | create
  | write (b : UInt8)
  | sync
  deriving DecidableEq

def SeedEffect.apply : SeedFile → SeedEffect → SeedFile
  | _, create => some []
  | file, write b => file.map fun bytes => bytes ++ [b]
  | file, sync => file

/-- `File::create`, `write_all` and `sync_all`. -/
def seedPlan (key : Bytes32) : List SeedEffect := .create :: (key.val.map .write ++ [.sync])

inductive Interruption where
  | crash
  | error (e : String)
  deriving DecidableEq

/-- What a start meets: an error of the read other than a missing file, the random key,
and after how many effects it is stopped. -/
structure SeedCalls where
  readError : Option String
  randomKey : Bytes32
  interrupted : Option (ℕ × Interruption)
  deriving DecidableEq

inductive SeedResult where
  | seed (key : Bytes32)
  | returned (message : String)
  | panicked (message : String)
  | crashed
  deriving DecidableEq

namespace SeedCalls
variable (calls : SeedCalls) (file : SeedFile)

def read : Except String (List UInt8) :=
  match calls.readError, file with
  | some e, _ => .error e
  | none, some seed => .ok seed
  | none, none => .error "No such file or directory (os error 2)"

/-- The effects on the file. Any error of the read leads to a new seed. -/
def performed : List SeedEffect :=
  match calls.read file with
  | .ok _ => []
  | .error _ =>
    match calls.interrupted with
    | none => seedPlan calls.randomKey
    | some (effects, _) => (seedPlan calls.randomKey).take effects

/-- Where a start ends that is stopped after so many effects. -/
def interruptedResult (keysSeedPath : String) (effects : ℕ) : Interruption → SeedResult
  | .crash => .crashed
  | .error e =>
    if effects = 0 then .returned ("ERROR: Unable to create keys seed file " ++ keysSeedPath ++ ": " ++ e)
    else if effects ≤ 32 then .panicked ("Failed to write node keys seed to disk: " ++ e)
    else .panicked ("Failed to sync node keys seed to disk: " ++ e)

def keysSeed (keysSeedPath : String) : SeedResult :=
  match calls.read file with
  | .ok seed => if h : seed.length = 32 then .seed ⟨seed, h⟩ else .panicked "assertion failed"
  | .error _ =>
    match calls.interrupted with
    | none => .seed calls.randomKey
    | some (effects, how) =>
      if effects < (seedPlan calls.randomKey).length then interruptedResult keysSeedPath effects how
      else .seed calls.randomKey

/-- The file cannot be read and is created anew. -/
def Overwrites : Prop := calls.readError.isSome = true ∧ calls.interrupted.map Prod.fst ≠ some 0

instance : Decidable calls.Overwrites := inferInstanceAs (Decidable (_ ∧ _))

end SeedCalls

def seedStep (file : SeedFile) (calls : SeedCalls) : SeedFile :=
  (calls.performed file).foldl SeedEffect.apply file

def seedRun (file : SeedFile) (starts : List SeedCalls) : SeedFile := run seedStep file starts

section Kept
variable (path : String) (file : SeedFile)

/-- The start has the seed, or the file has all of it when the start ends. -/
def Establishes (calls : SeedCalls) (key : Bytes32) : Prop :=
  calls.keysSeed file path = .seed key ∨ seedStep file calls = some key.val

/-- One of the starts has established the seed. -/
def Established (starts : List SeedCalls) (key : Bytes32) : Prop :=
  SomeAfter (fun older calls => Establishes path (seedRun file older) calls key) starts

/-- Once a seed is established, every start has that seed or none, and has no effect on
the file, which still holds the seed. -/
def SeedKept (starts : List SeedCalls) : Prop :=
  EachAfter (fun older calls => ∀ key, Established path file older key →
    (∀ other, calls.keysSeed (seedRun file older) path = .seed other → other = key) ∧
      calls.performed (seedRun file older) = [] ∧ seedRun file (older ++ [calls]) = some key.val) starts

end Kept

section Step
variable {path : String} {file : SeedFile} {calls : SeedCalls} {key : Bytes32}

theorem foldl_write (bytes : List UInt8) (start : List UInt8) :
    (bytes.map SeedEffect.write).foldl SeedEffect.apply (some start) = some (start ++ bytes) := by
  induction bytes generalizing start with
  | nil => simp
  | cons b bytes ih =>
    rw [List.map_cons, List.foldl_cons]
    change (bytes.map SeedEffect.write).foldl SeedEffect.apply (some (start ++ [b])) = _
    rw [ih]
    simp

theorem foldl_seedPlan (file : SeedFile) (key : Bytes32) :
    (seedPlan key).foldl SeedEffect.apply file = some key.val := by
  rw [seedPlan, List.foldl_cons, List.foldl_append]
  change [SeedEffect.sync].foldl _ ((key.val.map SeedEffect.write).foldl _ (some [])) = _
  rw [foldl_write]
  rfl

theorem file_of_read {seed : List UInt8} (h : calls.read file = .ok seed) : file = some seed := by
  unfold SeedCalls.read at h
  split at h
  · cases h
  · cases h
    rfl
  · cases h

/-- A start that is stopped has no seed. -/
theorem interruptedResult_ne_seed (path : String) (effects : ℕ) (how : Interruption) (key : Bytes32) :
    SeedCalls.interruptedResult path effects how ≠ .seed key := by
  unfold SeedCalls.interruptedResult
  split
  · exact SeedResult.noConfusion
  · split
    · exact SeedResult.noConfusion
    · split <;> exact SeedResult.noConfusion

/-- A start that has a seed leaves it in the file. -/
theorem seedStep_of_seed (h : calls.keysSeed file path = .seed key) :
    seedStep file calls = some key.val := by
  unfold SeedCalls.keysSeed at h
  unfold seedStep SeedCalls.performed
  cases hread : calls.read file with
  | ok seed =>
    simp only [hread] at h ⊢
    split at h
    · cases h
      exact file_of_read hread
    · cases h
  | error e =>
    simp only [hread] at h ⊢
    cases hinterrupted : calls.interrupted with
    | none =>
      simp only [hinterrupted] at h ⊢
      cases h
      exact foldl_seedPlan file calls.randomKey
    | some stop =>
      obtain ⟨effects, how⟩ := stop
      simp only [hinterrupted] at h ⊢
      split at h
      · exact absurd h (interruptedResult_ne_seed path effects how key)
      · rename_i hall
        cases h
        rw [List.take_of_length_le (Nat.not_lt.mp hall)]
        exact foldl_seedPlan file calls.randomKey

theorem seedStep_of_establishes (h : Establishes path file calls key) :
    seedStep file calls = some key.val := by
  rcases h with hseed | hfile
  · exact seedStep_of_seed hseed
  · exact hfile

/-- A start without effects does not overwrite. -/
theorem not_overwrites_of_performed (h : calls.performed file = []) : ¬calls.Overwrites := by
  rintro ⟨herror, hcreated⟩
  obtain ⟨e, he⟩ := Option.isSome_iff_exists.mp herror
  have hread : calls.read file = .error e := by simp only [SeedCalls.read, he]
  unfold SeedCalls.performed at h
  simp only [hread] at h
  cases hinterrupted : calls.interrupted with
  | none =>
    simp only [hinterrupted] at h
    cases h
  | some stop =>
    obtain ⟨effects, how⟩ := stop
    simp only [hinterrupted] at h hcreated
    cases effects with
    | zero => exact hcreated rfl
    | succ effects => cases h

/-- With the seed in the file, a start that does not overwrite it has it or stops. -/
theorem start_of_stored (path : String) (key : Bytes32) (h : ¬calls.Overwrites) :
    calls.performed (some key.val) = [] ∧
      ∀ other, calls.keysSeed (some key.val) path = .seed other → other = key := by
  obtain ⟨readError, randomKey, interrupted⟩ := calls
  cases readError with
  | none =>
    refine ⟨rfl, fun other hother => ?_⟩
    have hseed : SeedCalls.keysSeed ⟨none, randomKey, interrupted⟩ (some key.val) path = .seed key := by
      simp [SeedCalls.keysSeed, SeedCalls.read, key.property]
    rw [hseed] at hother
    cases hother
    rfl
  | some e =>
    have hstopped : interrupted.map Prod.fst = some 0 := by
      by_contra hcreated
      exact h ⟨rfl, hcreated⟩
    obtain ⟨⟨effects, how⟩, rfl, hzero⟩ := Option.map_eq_some_iff.mp hstopped
    cases hzero
    exact ⟨rfl, fun other hother => absurd hother (interruptedResult_ne_seed path 0 how other)⟩

end Step

section Runs
variable {path : String} {file : SeedFile}

theorem seedRun_concat (starts : List SeedCalls) (calls : SeedCalls) :
    seedRun file (starts ++ [calls]) = seedStep (seedRun file starts) calls := run_concat ..

/-- While no established seed is overwritten, the file holds the one established. -/
theorem seedRun_of_established {starts : List SeedCalls}
    (hkeeps : EachAfter (fun older calls => (∃ key, Established path file older key) →
      ¬calls.Overwrites) starts) {key : Bytes32} (h : Established path file starts key) :
    seedRun file starts = some key.val := by
  induction starts using List.reverseRecOn with
  | nil => exact absurd h (someAfter_nil _)
  | append_singleton starts calls ih =>
    obtain ⟨hbefore, hcalls⟩ := eachAfter_concat.mp hkeeps
    rw [seedRun_concat]
    rcases someAfter_concat.mp h with hold | hnew
    · have hstored := ih hbefore hold
      obtain ⟨hquiet, -⟩ := start_of_stored path key (hcalls ⟨key, hold⟩)
      rw [hstored, seedStep, hquiet]
      rfl
    · exact seedStep_of_establishes hnew

/-- The seed is kept over all starts iff none that cannot read an established seed
creates the file anew. -/
theorem seed_kept_iff (path : String) (file : SeedFile) (starts : List SeedCalls) :
    SeedKept path file starts ↔ EachAfter (fun older calls => (∃ key, Established path file older key) →
      ¬calls.Overwrites) starts := by
  constructor
  · intro h older calls newer hsplit hestablished
    obtain ⟨key, hkey⟩ := hestablished
    obtain ⟨-, hquiet, -⟩ := h older calls newer hsplit key hkey
    exact not_overwrites_of_performed hquiet
  · intro h older calls newer hsplit key hkey
    have hbefore := h.initial ⟨calls :: newer, hsplit.symm⟩
    have hstored := seedRun_of_established hbefore hkey
    obtain ⟨hquiet, hsame⟩ := start_of_stored path key (h older calls newer hsplit ⟨key, hkey⟩)
    rw [seedRun_concat, seedStep, hstored, hquiet]
    exact ⟨hsame, rfl, rfl⟩

/-- A first start, and one whose read is refused although the file can be written. -/
def firstStart : SeedCalls := ⟨none, Bytes32.fill 1, none⟩
def unreadableStart : SeedCalls := ⟨some "Permission denied (os error 13)", Bytes32.fill 2, none⟩

theorem unreadable_seed_lost : ¬SeedKept ".ldk/keys_seed" none [firstStart, unreadableStart] := by
  intro hkept
  have hfirst : Established ".ldk/keys_seed" none [firstStart] (Bytes32.fill 1) :=
    ⟨[], firstStart, [], rfl, .inl (by decide)⟩
  obtain ⟨-, hquiet, -⟩ := hkept [firstStart] unreadableStart [] rfl _ hfirst
  revert hquiet
  decide

end Runs

end RgbLightning.Startup

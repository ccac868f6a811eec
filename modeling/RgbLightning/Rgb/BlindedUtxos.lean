import RgbLightning.Base.Effects
import RgbLightning.Base.Runs
import RgbLightning.Node.Program

/-! # Blinded UTXOs and their transfers

`receiveasset` keeps the secret of a seal, writes a file named after the concealed seal
and prints that name. `refresh` asks the proxy for the transfer of every file, and
removes the file once the transfer was accepted as valid. Both can be stopped after any
effect.
-/
namespace RgbLightning.Rgb
open Decimal Effects Runs Node

/-- A seal on an outpoint with its random blinding. -/
structure GraphSeal where
  outpoint : OutPoint
  blinding : ℕ
  deriving DecidableEq

structure BlindedInfo where
  contractId : Option ContractId
  graphSeal : GraphSeal
  consumed : Bool
  deriving DecidableEq

variable {C : Type}

/-- The files of `blinded_utxos`, where a file created and not yet written has no
contents. The transfers accepted are kept with their status. -/
structure BlindedWorld (C : Type) where
  secrets : List GraphSeal
  dir : Text → Option (Option BlindedInfo)
  printed : List Text
  accepted : List (Text × C × Validity)

def BlindedWorld.init : BlindedWorld C := ⟨[], fun _ => none, [], []⟩

inductive BlindedEffect (C : Type) where
  | storeSealSecret (graphSeal : GraphSeal)
  | create (name : Text)
  | write (name : Text) (info : BlindedInfo)
  | print (blindedUtxo : Text)
  | panic
  | acceptTransfer (blindedUtxo : Text) (transfer : C) (validity : Validity)
  | removeFile (name : Text)

def BlindedEffect.perform (w : BlindedWorld C) : BlindedEffect C → Option (BlindedWorld C)
  | storeSealSecret graphSeal => some { w with secrets := w.secrets ++ [graphSeal] }
  | create name => some { w with dir := Function.update w.dir name (some none) }
  | write name info => some { w with dir := Function.update w.dir name (some (some info)) }
  | print blindedUtxo => some { w with printed := w.printed ++ [blindedUtxo] }
  | panic => none
  | acceptTransfer blindedUtxo transfer validity =>
    some { w with accepted := w.accepted ++ [(blindedUtxo, transfer, validity)] }
  | removeFile name =>
    (w.dir name).map fun _ => { w with dir := Function.update w.dir name none }

/-- What comes of the transfer that the proxy has for a blinded UTXO. -/
inductive ConsignmentReply (C : Type) where
  | unavailable
  /-- The consignment cannot be decoded, loaded, imported or validated. -/
  | malformed
  | accepted (transfer : C) (validity : Validity)

section Commands
variable (conceal : GraphSeal → Text) (getConsignment : Text → ConsignmentReply C)

def receiveassetPlan (graphSeal : GraphSeal) : List (BlindedEffect C) :=
  [.storeSealSecret graphSeal, .create (conceal graphSeal),
    .write (conceal graphSeal) ⟨none, graphSeal, false⟩, .print (conceal graphSeal)]

def transferPlan (name blindedUtxo : Text) : ConsignmentReply C → List (BlindedEffect C)
  | .unavailable => []
  | .malformed => [.panic]
  | .accepted transfer validity => .acceptTransfer blindedUtxo transfer validity ::
    if validity = .valid then [.removeFile name] else []

/-- A file is there or not, and its contents are there or not. -/
def filePlan (name : Text) : Option (Option BlindedInfo) → List (BlindedEffect C)
  | none => []
  | some none => [.panic]
  | some (some info) =>
    if info.consumed then []
    else transferPlan name (conceal info.graphSeal) (getConsignment (conceal info.graphSeal))

/-- The entries are those of the directory, in the order in which they are read. -/
def refreshPlan (dir : Text → Option (Option BlindedInfo)) (entries : List Text) :
    List (BlindedEffect C) :=
  entries.flatMap fun name => filePlan conceal getConsignment name (dir name)

end Commands

/-- A command, and after how many effects it is stopped. -/
inductive BlindedInput (C : Type) where
  | receiveasset (graphSeal : GraphSeal) (stop : ℕ)
  | refresh (entries : List Text) (getConsignment : Text → ConsignmentReply C) (stop : ℕ)

variable (conceal : GraphSeal → Text)

/-- The effects up to the stop. -/
def BlindedInput.plan (w : BlindedWorld C) : BlindedInput C → List (BlindedEffect C)
  | receiveasset graphSeal stop => (receiveassetPlan conceal graphSeal).take stop
  | refresh entries getConsignment stop =>
    (refreshPlan conceal getConsignment w.dir entries).take stop

def blindedStep (w : BlindedWorld C) (input : BlindedInput C) : BlindedWorld C :=
  (attempt BlindedEffect.perform (input.plan conceal w) w).2

def blindedRun (inputs : List (BlindedInput C)) : BlindedWorld C := run (blindedStep conceal) .init inputs

/-- The blinded UTXO that a command makes. -/
def BlindedInput.blindedUtxo? : BlindedInput C → Option Text
  | receiveasset graphSeal _ => some (conceal graphSeal)
  | refresh .. => none

/-- Every seal has a concealed form of its own, which blinding makes new. -/
def FreshSeals (inputs : List (BlindedInput C)) : Prop :=
  (inputs.filterMap (BlindedInput.blindedUtxo? conceal)).Nodup

/-- A `receiveasset` stopped between the creation of the file and the write. -/
def BlindedInput.Tears (name : Text) : BlindedInput C → Prop
  | receiveasset graphSeal stop => conceal graphSeal = name ∧ stop = 2
  | refresh .. => False

section Kept
variable {conceal} {w : BlindedWorld C}

/-- The files that can be read are as they were written, and the secrets of their seals
are known. What was printed waits in its file or has been accepted. -/
structure BlindedInv (conceal : GraphSeal → Text) (w : BlindedWorld C) : Prop where
  files : ∀ name info, w.dir name = some (some info) →
    info = ⟨none, info.graphSeal, false⟩ ∧ conceal info.graphSeal = name ∧ info.graphSeal ∈ w.secrets
  printed : ∀ b ∈ w.printed, (∃ info, w.dir b = some (some info)) ∨
    ∃ transfer, (b, transfer, .valid) ∈ w.accepted
  accepted : ∀ b transfer validity, (b, transfer, validity) ∈ w.accepted →
    ∃ graphSeal ∈ w.secrets, conceal graphSeal = b

/-- The effects of a refresh: a transfer is accepted for a known seal, and a file that
can be read is removed after its transfer was accepted as valid. -/
def BlindedEffect.OfRefresh (conceal : GraphSeal → Text) (w : BlindedWorld C) : BlindedEffect C → Prop
  | panic => True
  | acceptTransfer blindedUtxo _ _ => ∃ graphSeal ∈ w.secrets, conceal graphSeal = blindedUtxo
  | removeFile name => w.dir name ≠ some none
  | _ => False

structure RefreshEffects (conceal : GraphSeal → Text) (w : BlindedWorld C)
    (effects : List (BlindedEffect C)) : Prop where
  kinds : ∀ e ∈ effects, e.OfRefresh conceal w
  removes : EachAfter (fun older e => ∀ name, e = .removeFile name →
    ∃ transfer, .acceptTransfer name transfer .valid ∈ older ∨ (name, transfer, .valid) ∈ w.accepted) effects

theorem RefreshEffects.nil : RefreshEffects conceal w [] := by
  refine ⟨by simp, eachAfter_nil _⟩

theorem RefreshEffects.take {effects : List (BlindedEffect C)} (h : RefreshEffects conceal w effects)
    (stop : ℕ) : RefreshEffects conceal w (effects.take stop) := by
  refine ⟨fun e he => h.kinds e (List.mem_of_mem_take he), ?_⟩
  exact h.removes.initial (List.take_prefix stop effects)

theorem RefreshEffects.append {xs ys : List (BlindedEffect C)} (hxs : RefreshEffects conceal w xs)
    (hys : RefreshEffects conceal w ys) : RefreshEffects conceal w (xs ++ ys) := by
  constructor
  · intro e he
    rcases List.mem_append.mp he with he | he
    · exact hxs.kinds e he
    · exact hys.kinds e he
  · apply eachAfter_append_of hxs.removes hys.removes
    intro before older e h name hname
    obtain ⟨transfer, haccept | haccept⟩ := h name hname
    · exact ⟨transfer, .inl (List.mem_append_right _ haccept)⟩
    · exact ⟨transfer, .inr haccept⟩

theorem RefreshEffects.one {e : BlindedEffect C} (hkind : e.OfRefresh conceal w)
    (hkeeps : ∀ name, e ≠ .removeFile name) : RefreshEffects conceal w [e] := by
  refine ⟨by simpa using hkind, ?_⟩
  rw [← List.nil_append [e]]
  exact eachAfter_concat.mpr ⟨eachAfter_nil _, fun name h => absurd h (hkeeps name)⟩

theorem RefreshEffects.transferPlan {graphSeal : GraphSeal} (hsecret : graphSeal ∈ w.secrets)
    (hfile : w.dir (conceal graphSeal) ≠ some none) (reply : ConsignmentReply C) :
    RefreshEffects conceal w (transferPlan (conceal graphSeal) (conceal graphSeal) reply) := by
  cases reply with
  | unavailable => exact RefreshEffects.nil
  | malformed => exact RefreshEffects.one trivial (by simp)
  | accepted transfer validity =>
    have haccept : RefreshEffects conceal w [.acceptTransfer (conceal graphSeal) transfer validity] :=
      RefreshEffects.one ⟨graphSeal, hsecret, rfl⟩ (by simp)
    rw [Rgb.transferPlan]
    split_ifs with hvalid
    · subst hvalid
      refine ⟨?_, eachAfter_concat.mpr ⟨haccept.removes, ?_⟩⟩
      · intro e he
        rcases List.mem_pair.mp he with rfl | rfl
        · exact haccept.kinds _ (by simp)
        · exact hfile
      · rintro name ⟨⟩
        exact ⟨transfer, .inl (by simp)⟩
    · exact haccept

theorem BlindedInv.filePlan_of_waits (hinv : BlindedInv conceal w)
    (getConsignment : Text → ConsignmentReply C) {name : Text} {info : BlindedInfo}
    (hfile : w.dir name = some (some info)) :
    filePlan conceal getConsignment name (w.dir name) = transferPlan name name (getConsignment name) := by
  obtain ⟨hinfo, hname, -⟩ := hinv.files name info hfile
  have hwaits : info.consumed = false := by rw [hinfo]
  rw [hfile, filePlan, hname, if_neg (by simp [hwaits])]

theorem BlindedInv.refreshEffects (hinv : BlindedInv conceal w)
    (getConsignment : Text → ConsignmentReply C) (entries : List Text) :
    RefreshEffects conceal w (refreshPlan conceal getConsignment w.dir entries) := by
  induction entries with
  | nil => exact RefreshEffects.nil
  | cons name entries ih =>
    rw [refreshPlan, List.flatMap_cons]
    apply RefreshEffects.append ?_ ih
    cases hfile : w.dir name with
    | none => exact RefreshEffects.nil
    | some file =>
      cases file with
      | none => exact RefreshEffects.one trivial (by simp)
      | some info =>
        rw [← hfile, hinv.filePlan_of_waits getConsignment hfile]
        obtain ⟨-, rfl, hsecret⟩ := hinv.files name info hfile
        have hreadable : w.dir (conceal info.graphSeal) ≠ some none := by simp [hfile]
        exact RefreshEffects.transferPlan hsecret hreadable _

/-- What is left of a refresh after its first effect. -/
theorem RefreshEffects.tail {e : BlindedEffect C} {rest : List (BlindedEffect C)} {next : BlindedWorld C}
    (h : RefreshEffects conceal w (e :: rest)) (hperform : e.perform w = some next) :
    RefreshEffects conceal next rest := by
  have hnext : w.secrets = next.secrets ∧ (∀ name, w.dir name ≠ some none → next.dir name ≠ some none) ∧
      (∀ name transfer, e = .acceptTransfer name transfer .valid ∨ (name, transfer, .valid) ∈ w.accepted →
        (name, transfer, .valid) ∈ next.accepted) := by
    have hkind := h.kinds e (by simp)
    cases e with
    | storeSealSecret | create | write | print => exact hkind.elim
    | panic => cases hperform
    | acceptTransfer b transfer validity =>
      cases hperform
      refine ⟨rfl, fun _ h => h, ?_⟩
      rintro name transfer (h | h)
      · cases h
        simp
      · exact List.mem_append_left _ h
    | removeFile name =>
      obtain ⟨file, hfile, rfl⟩ := Option.map_eq_some_iff.mp hperform
      refine ⟨rfl, ?_, by simp⟩
      intro other hother
      dsimp only
      by_cases hname : other = name
      · subst hname
        simp
      · rwa [Function.update_of_ne hname]
  obtain ⟨hsecrets, hdir, haccepted⟩ := hnext
  constructor
  · intro later hlater
    have hkind := h.kinds later (List.mem_cons_of_mem _ hlater)
    cases later with
    | storeSealSecret | create | write | print => exact hkind.elim
    | panic => trivial
    | acceptTransfer =>
      rw [BlindedEffect.OfRefresh, ← hsecrets]
      exact hkind
    | removeFile name => exact hdir name hkind
  · rintro older later newer rfl name rfl
    obtain ⟨transfer, htransfer⟩ := h.removes (e :: older) _ newer rfl name rfl
    refine ⟨transfer, ?_⟩
    rcases htransfer with hmem | hmem
    · rcases List.mem_cons.mp hmem with heq | hmem
      · exact .inr (haccepted name transfer (.inl heq.symm))
      · exact .inl hmem
    · exact .inr (haccepted name transfer (.inr hmem))

theorem BlindedInv.perform_ofRefresh {e : BlindedEffect C} {next : BlindedWorld C}
    (hinv : BlindedInv conceal w) (hkind : e.OfRefresh conceal w)
    (hremoves : ∀ name, e = .removeFile name → ∃ transfer, (name, transfer, .valid) ∈ w.accepted)
    (hperform : e.perform w = some next) : BlindedInv conceal next := by
  cases e with
  | storeSealSecret | create | write | print => exact hkind.elim
  | panic => cases hperform
  | acceptTransfer b transfer validity =>
    cases hperform
    refine ⟨hinv.files, ?_, ?_⟩
    · intro b hb
      rcases hinv.printed b hb with hwaits | ⟨transfer, haccepted⟩
      · exact .inl hwaits
      · exact .inr ⟨transfer, List.mem_append_left _ haccepted⟩
    · intro b transfer validity h
      rcases List.mem_append.mp h with h | h
      · exact hinv.accepted b transfer validity h
      · cases List.mem_singleton.mp h
        exact hkind
  | removeFile removed =>
    obtain ⟨transfer, haccepted⟩ := hremoves removed rfl
    obtain ⟨file, hfile, rfl⟩ := Option.map_eq_some_iff.mp hperform
    refine ⟨?_, ?_, hinv.accepted⟩
    · intro name info hname
      dsimp only at hname
      by_cases hother : name = removed
      · rw [hother, Function.update_self] at hname
        cases hname
      · rw [Function.update_of_ne hother] at hname
        exact hinv.files name info hname
    · intro b hb
      dsimp only
      by_cases hother : b = removed
      · subst hother
        exact .inr ⟨transfer, haccepted⟩
      · rw [Function.update_of_ne hother]
        exact hinv.printed b hb

/-- A refresh keeps the invariant wherever it is stopped. -/
theorem BlindedInv.refresh {effects : List (BlindedEffect C)} (hinv : BlindedInv conceal w)
    (heffects : RefreshEffects conceal w effects) :
    BlindedInv conceal (attempt BlindedEffect.perform effects w).2 := by
  induction effects generalizing w with
  | nil => exact hinv
  | cons e rest ih =>
    cases hperform : e.perform w with
    | none => rwa [attempt_cons_none hperform]
    | some next =>
      rw [attempt_cons_some hperform]
      refine ih (hinv.perform_ofRefresh (heffects.kinds e (by simp)) ?_ hperform) (heffects.tail hperform)
      intro name hname
      obtain ⟨transfer, haccept | haccept⟩ := heffects.removes [] e rest rfl name hname
      · cases haccept
      · exact ⟨transfer, haccept⟩

/-- What a refresh leaves alone, and that it only removes files that can be read. -/
structure RefreshFrame (w w' : BlindedWorld C) : Prop where
  secrets : w'.secrets = w.secrets
  printed : w'.printed = w.printed
  dir : ∀ name, w'.dir name = w.dir name ∨ w'.dir name = none ∧ w.dir name ≠ some none

theorem RefreshFrame.trans {w' w'' : BlindedWorld C} (h : RefreshFrame w w') (h' : RefreshFrame w' w'') :
    RefreshFrame w w'' := by
  refine ⟨h'.secrets.trans h.secrets, h'.printed.trans h.printed, fun name => ?_⟩
  rcases h'.dir name with hsame | ⟨hnone, hread⟩
  · rw [hsame]
    exact h.dir name
  · rcases h.dir name with hsame | ⟨-, hread'⟩
    · exact .inr ⟨hnone, hsame ▸ hread⟩
    · exact .inr ⟨hnone, hread'⟩

theorem RefreshFrame.torn_iff {w' : BlindedWorld C} (h : RefreshFrame w w') (name : Text) :
    w'.dir name = some none ↔ w.dir name = some none := by
  rcases h.dir name with hsame | ⟨hnone, hread⟩
  · rw [hsame]
  · simp [hnone, hread]

theorem RefreshFrame.dir_ne_none {w' : BlindedWorld C} (h : RefreshFrame w w') {name : Text}
    (hname : w'.dir name ≠ none) : w.dir name ≠ none := by
  rcases h.dir name with hsame | ⟨hnone, -⟩
  · rwa [← hsame]
  · exact absurd hnone hname

theorem RefreshEffects.frame {effects : List (BlindedEffect C)} (h : RefreshEffects conceal w effects) :
    RefreshFrame w (attempt BlindedEffect.perform effects w).2 := by
  induction effects generalizing w with
  | nil => exact ⟨rfl, rfl, fun _ => .inl rfl⟩
  | cons e rest ih =>
    cases hperform : e.perform w with
    | none =>
      rw [attempt_cons_none hperform]
      exact ⟨rfl, rfl, fun _ => .inl rfl⟩
    | some next =>
      rw [attempt_cons_some hperform]
      refine RefreshFrame.trans ?_ (ih (h.tail hperform))
      have hkind := h.kinds e (by simp)
      cases e with
      | storeSealSecret | create | write | print => exact hkind.elim
      | panic => cases hperform
      | acceptTransfer =>
        cases hperform
        exact ⟨rfl, rfl, fun _ => .inl rfl⟩
      | removeFile removed =>
        obtain ⟨file, hfile, rfl⟩ := Option.map_eq_some_iff.mp hperform
        refine ⟨rfl, rfl, fun name => ?_⟩
        dsimp only
        by_cases hname : name = removed
        · subst hname
          exact .inr ⟨Function.update_self .., hkind⟩
        · exact .inl (Function.update_of_ne hname ..)

/-- What a `receiveasset` has done when it is stopped. -/
theorem attempt_receiveasset (graphSeal : GraphSeal) (stop : ℕ) :
    (attempt BlindedEffect.perform ((receiveassetPlan conceal graphSeal).take stop) w).2 =
      { secrets := if stop = 0 then w.secrets else w.secrets ++ [graphSeal]
        dir := if stop ≤ 1 then w.dir else Function.update w.dir (conceal graphSeal)
          (some (if stop = 2 then none else some ⟨none, graphSeal, false⟩))
        printed := if stop ≤ 3 then w.printed else w.printed ++ [conceal graphSeal]
        accepted := w.accepted } := by
  match stop with
  | 0 | 1 | 2 => rfl
  | 3 | n + 4 => simp [receiveassetPlan, attempt, BlindedEffect.perform]

/-- `receiveasset` keeps the invariant wherever it is stopped, for a name not yet in use. -/
theorem BlindedInv.receiveasset (hinv : BlindedInv conceal w) {graphSeal : GraphSeal} (stop : ℕ)
    (hdir : w.dir (conceal graphSeal) = none) :
    BlindedInv conceal
      (attempt BlindedEffect.perform ((receiveassetPlan conceal graphSeal).take stop) w).2 := by
  rw [attempt_receiveasset]
  have hsecrets : ∀ s ∈ w.secrets, s ∈ if stop = 0 then w.secrets else w.secrets ++ [graphSeal] := by
    intro s hs
    split_ifs
    · exact hs
    · exact List.mem_append_left _ hs
  constructor
  · intro name info hname
    dsimp only at hname ⊢
    by_cases hearly : stop ≤ 1
    · rw [if_pos hearly] at hname
      obtain ⟨hinfo, hnamed, hsecret⟩ := hinv.files name info hname
      exact ⟨hinfo, hnamed, hsecrets _ hsecret⟩
    · rw [if_neg hearly] at hname
      by_cases hnew : name = conceal graphSeal
      · subst hnew
        rw [Function.update_self] at hname
        have hwritten : stop ≠ 2 := by
          rintro rfl
          simp at hname
        rw [if_neg hwritten] at hname
        cases hname
        refine ⟨rfl, rfl, ?_⟩
        rw [if_neg (by omega)]
        simp
      · rw [Function.update_of_ne hnew] at hname
        obtain ⟨hinfo, hnamed, hsecret⟩ := hinv.files name info hname
        exact ⟨hinfo, hnamed, hsecrets _ hsecret⟩
  · intro b hb
    dsimp only at hb ⊢
    by_cases hnew : b = conceal graphSeal ∧ 4 ≤ stop
    · obtain ⟨rfl, hstop⟩ := hnew
      refine .inl ⟨⟨none, graphSeal, false⟩, ?_⟩
      rw [if_neg (by omega), if_neg (by omega), Function.update_self]
    · have hold : b ∈ w.printed := by
        split_ifs at hb with hstop
        · exact hb
        · rcases List.mem_append.mp hb with hb | hb
          · exact hb
          · exact absurd ⟨List.mem_singleton.mp hb, by omega⟩ hnew
      rcases hinv.printed b hold with ⟨info, hinfo⟩ | haccepted
      · have hne : b ≠ conceal graphSeal := by
          rintro rfl
          simp [hdir] at hinfo
        refine .inl ⟨info, ?_⟩
        split_ifs
        · exact hinfo
        · rwa [Function.update_of_ne hne]
        · rwa [Function.update_of_ne hne]
      · exact .inr haccepted
  · intro b transfer validity h
    obtain ⟨s, hs, hb⟩ := hinv.accepted b transfer validity h
    exact ⟨s, hsecrets s hs, hb⟩

/-- What was accepted before, or is accepted by an effect of the plan. -/
theorem accepted_of_attempt {effects : List (BlindedEffect C)} {x : Text × C × Validity}
    (h : x ∈ (attempt BlindedEffect.perform effects w).2.accepted) :
    x ∈ w.accepted ∨ .acceptTransfer x.1 x.2.1 x.2.2 ∈ effects := by
  induction effects generalizing w with
  | nil => exact .inl h
  | cons e rest ih =>
    cases hperform : e.perform w with
    | none =>
      rw [attempt_cons_none hperform] at h
      exact .inl h
    | some next =>
      rw [attempt_cons_some hperform] at h
      rcases ih h with hx | hx
      · cases e with
        | panic => cases hperform
        | acceptTransfer b transfer validity =>
          cases hperform
          rcases List.mem_append.mp hx with hx | hx
          · exact .inl hx
          · cases List.mem_singleton.mp hx
            exact .inr (List.mem_cons_self ..)
        | removeFile name =>
          obtain ⟨file, hfile, rfl⟩ := Option.map_eq_some_iff.mp hperform
          exact .inl hx
        | storeSealSecret | create | write | print =>
          cases hperform
          exact .inl hx
      · exact .inr (List.mem_cons_of_mem _ hx)

theorem answered_of_mem_refreshPlan {getConsignment : Text → ConsignmentReply C}
    {dir : Text → Option (Option BlindedInfo)} {entries : List Text} {b : Text} {transfer : C}
    {validity : Validity}
    (h : .acceptTransfer b transfer validity ∈ refreshPlan conceal getConsignment dir entries) :
    getConsignment b = .accepted transfer validity := by
  obtain ⟨name, -, hmem⟩ := List.mem_flatMap.mp h
  cases hfile : dir name with
  | none => simp [hfile, filePlan] at hmem
  | some file =>
    cases file with
    | none => simp [hfile, filePlan] at hmem
    | some info =>
      rw [hfile, filePlan] at hmem
      split_ifs at hmem
      · cases hmem
      · cases hreply : getConsignment (conceal info.graphSeal) with
        | unavailable => simp [hreply, transferPlan] at hmem
        | malformed => simp [hreply, transferPlan] at hmem
        | accepted transfer' validity' =>
          rw [hreply, transferPlan] at hmem
          rcases List.mem_cons.mp hmem with heq | hmem
          · cases heq
            exact hreply
          · split_ifs at hmem
            · cases List.mem_singleton.mp hmem
            · cases hmem

end Kept

section Reached
variable {conceal} {inputs : List (BlindedInput C)}

/-- What a run of commands leads to. -/
structure BlindedReached (conceal : GraphSeal → Text) (inputs : List (BlindedInput C))
    (w : BlindedWorld C) : Prop where
  inv : BlindedInv conceal w
  names : ∀ name, w.dir name ≠ none → name ∈ inputs.filterMap (BlindedInput.blindedUtxo? conceal)
  torn : ∀ name, w.dir name = some none ↔ ∃ input ∈ inputs, input.Tears conceal name
  answered : ∀ b transfer validity, (b, transfer, validity) ∈ w.accepted →
    ∃ entries getConsignment stop, .refresh entries getConsignment stop ∈ inputs ∧
      getConsignment b = .accepted transfer validity

theorem BlindedReached.receiveasset {w : BlindedWorld C} (h : BlindedReached conceal inputs w)
    {graphSeal : GraphSeal} (stop : ℕ)
    (hnew : conceal graphSeal ∉ inputs.filterMap (BlindedInput.blindedUtxo? conceal)) :
    BlindedReached conceal (inputs ++ [.receiveasset graphSeal stop])
      (blindedStep conceal w (.receiveasset graphSeal stop)) := by
  have hfree : w.dir (conceal graphSeal) = none := by
    by_contra hdir
    exact hnew (h.names _ hdir)
  have hcontents : (attempt BlindedEffect.perform ((receiveassetPlan conceal graphSeal).take stop) w).2 =
      _ := attempt_receiveasset graphSeal stop
  have hinv := h.inv.receiveasset stop hfree
  rw [blindedStep, BlindedInput.plan]
  refine ⟨hinv, ?_, ?_, ?_⟩
  · intro name hname
    rw [List.filterMap_append, List.mem_append]
    by_cases hsame : name = conceal graphSeal
    · exact .inr (by simp [BlindedInput.blindedUtxo?, hsame])
    · refine .inl (h.names name ?_)
      rw [hcontents] at hname
      dsimp only at hname
      split_ifs at hname
      · exact hname
      · rwa [Function.update_of_ne hsame] at hname
      · rwa [Function.update_of_ne hsame] at hname
  · intro name
    have htears : (∃ input ∈ inputs ++ [.receiveasset graphSeal stop], input.Tears conceal name) ↔
        (∃ input ∈ inputs, input.Tears conceal name) ∨ conceal graphSeal = name ∧ stop = 2 := by
      simp [or_and_right, exists_or, BlindedInput.Tears]
    rw [htears, ← h.torn, hcontents]
    by_cases hsame : conceal graphSeal = name
    · subst hsame
      by_cases hearly : stop ≤ 1
      · simp only [hearly, if_true, hfree]
        have htwo : stop ≠ 2 := by omega
        simp [htwo]
      · simp only [hearly, if_false, Function.update_self, hfree]
        split_ifs with htwo
        · simp [htwo]
        · simp [htwo]
    · have hother : name ≠ conceal graphSeal := fun heq => hsame heq.symm
      dsimp only
      split_ifs
      · simp [hsame]
      · simp [hsame, Function.update_of_ne hother]
      · simp [hsame, Function.update_of_ne hother]
  · intro b transfer validity hmem
    rw [hcontents] at hmem
    obtain ⟨entries, getConsignment, stop, hinput, hreply⟩ := h.answered b transfer validity hmem
    exact ⟨entries, getConsignment, stop, List.mem_append_left _ hinput, hreply⟩

theorem BlindedReached.refresh {w : BlindedWorld C} (h : BlindedReached conceal inputs w)
    (entries : List Text) (getConsignment : Text → ConsignmentReply C) (stop : ℕ) :
    BlindedReached conceal (inputs ++ [.refresh entries getConsignment stop])
      (blindedStep conceal w (.refresh entries getConsignment stop)) := by
  have heffects := (h.inv.refreshEffects getConsignment entries).take stop
  have hframe := heffects.frame
  rw [blindedStep, BlindedInput.plan]
  refine ⟨h.inv.refresh heffects, ?_, ?_, ?_⟩
  · intro name hname
    rw [List.filterMap_append]
    exact List.mem_append_left _ (h.names name (hframe.dir_ne_none hname))
  · intro name
    rw [hframe.torn_iff, h.torn]
    simp [or_and_right, exists_or, BlindedInput.Tears]
  · intro b transfer validity hmem
    rcases accepted_of_attempt hmem with hold | hnew
    · obtain ⟨entries', getConsignment', stop', hinput, hreply⟩ := h.answered b transfer validity hold
      exact ⟨entries', getConsignment', stop', List.mem_append_left _ hinput, hreply⟩
    · have hreply := answered_of_mem_refreshPlan (List.mem_of_mem_take hnew)
      exact ⟨entries, getConsignment, stop, by simp, hreply⟩

theorem blindedRun_reached (hfresh : FreshSeals conceal inputs) :
    BlindedReached conceal inputs (blindedRun conceal inputs) := by
  induction inputs using List.reverseRecOn with
  | nil => exact ⟨⟨nofun, nofun, nofun⟩, nofun, by simp [blindedRun, BlindedWorld.init], nofun⟩
  | append_singleton inputs input ih =>
    rw [FreshSeals, List.filterMap_append, List.nodup_append] at hfresh
    obtain ⟨hbefore, -, hapart⟩ := hfresh
    rw [blindedRun, run_concat]
    cases input with
    | receiveasset graphSeal stop =>
      apply (ih hbefore).receiveasset stop
      intro hused
      exact hapart _ hused _ (by simp [BlindedInput.blindedUtxo?]) rfl
    | refresh entries getConsignment stop => exact (ih hbefore).refresh entries getConsignment stop

/-- Wherever the commands are stopped: a blinded UTXO that was printed waits in its file,
with the secret of its seal kept, or the proxy's transfer for it was accepted as valid. -/
theorem printed_waits_or_accepted (hfresh : FreshSeals conceal inputs) {b : Text}
    (hprinted : b ∈ (blindedRun conceal inputs).printed) :
    (∃ graphSeal ∈ (blindedRun conceal inputs).secrets, conceal graphSeal = b ∧
      (blindedRun conceal inputs).dir b = some (some ⟨none, graphSeal, false⟩)) ∨
    ∃ transfer entries getConsignment stop, (b, transfer, .valid) ∈ (blindedRun conceal inputs).accepted ∧
      .refresh entries getConsignment stop ∈ inputs ∧ getConsignment b = .accepted transfer .valid := by
  have h := blindedRun_reached hfresh
  rcases h.inv.printed b hprinted with ⟨info, hfile⟩ | ⟨transfer, haccepted⟩
  · obtain ⟨hinfo, hname, hsecret⟩ := h.inv.files b info hfile
    rw [hinfo] at hfile
    exact .inl ⟨info.graphSeal, hsecret, hname, hfile⟩
  · obtain ⟨entries, getConsignment, stop, hinput, hreply⟩ := h.answered b transfer .valid haccepted
    exact .inr ⟨transfer, entries, getConsignment, stop, haccepted, hinput, hreply⟩

/-- A file made at the first `receiveasset` and settled by the refresh after the second,
which was stopped before its print. -/
theorem printed_waits_or_accepted_settled :
    let s : GraphSeal := ⟨⟨.fill 1, 0⟩, 1⟩
    let s' : GraphSeal := ⟨⟨.fill 2, 0⟩, 2⟩
    let conceal : GraphSeal → Text := fun s => List.replicate s.blinding 'u'
    let inputs : List (BlindedInput Unit) := [.receiveasset s 4, .receiveasset s' 3,
      .refresh [['u'], ['u', 'u']] (fun _ => .accepted () .valid) 2]
    (∃ graphSeal ∈ (blindedRun conceal inputs).secrets, conceal graphSeal = ['u'] ∧
      (blindedRun conceal inputs).dir ['u'] = some (some ⟨none, graphSeal, false⟩)) ∨
    ∃ transfer entries getConsignment stop,
      (['u'], transfer, .valid) ∈ (blindedRun conceal inputs).accepted ∧
      .refresh entries getConsignment stop ∈ inputs ∧ getConsignment ['u'] = .accepted transfer .valid := by
  intro s s' conceal inputs
  have hfresh : FreshSeals conceal inputs := by
    change List.Nodup [['u'], ['u', 'u']]
    decide
  exact printed_waits_or_accepted hfresh (List.mem_singleton.mpr rfl)

/-- The names of the files there are, in some order. -/
structure Listing (dir : Text → Option (Option BlindedInfo)) (entries : List Text) : Prop where
  nodup : entries.Nodup
  complete : ∀ name, name ∈ entries ↔ dir name ≠ none

section Settle
variable {w : BlindedWorld C} {getConsignment : Text → ConsignmentReply C}

/-- The reply for a file, if it is a transfer. -/
def ConsignmentReply.answer? (name : Text) : ConsignmentReply C → Option (Text × C × Validity)
  | accepted transfer validity => some (name, transfer, validity)
  | unavailable | malformed => none

def ConsignmentReply.Valid : ConsignmentReply C → Prop
  | accepted _ validity => validity = .valid
  | unavailable | malformed => False

instance (reply : ConsignmentReply C) : Decidable reply.Valid := by
  cases reply <;> unfold ConsignmentReply.Valid <;> infer_instance

/-- What the reply for a readable file comes to. -/
def BlindedWorld.settle (w : BlindedWorld C) (name : Text) (reply : ConsignmentReply C) : BlindedWorld C :=
  { w with
    accepted := w.accepted ++ (reply.answer? name).toList
    dir := if reply.Valid then Function.update w.dir name none else w.dir }

theorem attempt_transferPlan {name : Text} {reply : ConsignmentReply C} (hfile : w.dir name ≠ none)
    (hreply : reply ≠ .malformed) :
    attempt BlindedEffect.perform (transferPlan name name reply) w = (true, w.settle name reply) := by
  obtain ⟨file, hfile⟩ := Option.ne_none_iff_exists'.mp hfile
  cases reply with
  | unavailable => simp [transferPlan, BlindedWorld.settle, ConsignmentReply.answer?, ConsignmentReply.Valid]
  | malformed => exact absurd rfl hreply
  | accepted transfer validity =>
    by_cases hvalid : validity = .valid
    · simp [transferPlan, hvalid, attempt, BlindedEffect.perform, hfile, BlindedWorld.settle,
        ConsignmentReply.answer?, ConsignmentReply.Valid]
    · simp [transferPlan, hvalid, attempt, BlindedEffect.perform, BlindedWorld.settle,
        ConsignmentReply.answer?, ConsignmentReply.Valid]

/-- The files of the remaining entries are those that the plan was made for. -/
theorem attempt_refreshPlan {w₀ : BlindedWorld C} (hinv : BlindedInv conceal w₀)
    {entries : List Text} (hreplies : ∀ name ∈ entries, getConsignment name ≠ .malformed)
    (hnodup : entries.Nodup)
    (hwaits : ∀ name ∈ entries, ∃ info, w₀.dir name = some (some info))
    (hsame : ∀ name ∈ entries, w.dir name = w₀.dir name) :
    attempt BlindedEffect.perform (refreshPlan conceal getConsignment w₀.dir entries) w =
      (true, { w with
        accepted := w.accepted ++ entries.filterMap fun name => (getConsignment name).answer? name
        dir := fun name => if name ∈ entries ∧ (getConsignment name).Valid then none else w.dir name }) := by
  induction entries generalizing w with
  | nil => simp [refreshPlan]
  | cons name entries ih =>
    obtain ⟨hname, hnodup⟩ := List.nodup_cons.mp hnodup
    obtain ⟨info, hinfo⟩ := hwaits name (List.mem_cons_self ..)
    have hfile : w.dir name ≠ none := by simp [hsame name (List.mem_cons_self ..), hinfo]
    have hrest : ∀ other ∈ entries, (w.settle name (getConsignment name)).dir other = w₀.dir other := by
      intro other hother
      have hne : other ≠ name := fun heq => hname (heq ▸ hother)
      rw [← hsame other (List.mem_cons_of_mem _ hother), BlindedWorld.settle]
      dsimp only
      split_ifs
      · exact Function.update_of_ne hne ..
      · rfl
    rw [refreshPlan, List.flatMap_cons, hinv.filePlan_of_waits getConsignment hinfo,
      attempt_append_of (attempt_transferPlan hfile (hreplies name (List.mem_cons_self ..)))]
    have hlater : ∀ other ∈ entries, getConsignment other ≠ .malformed := by
      intro other hother
      exact hreplies other (List.mem_cons_of_mem _ hother)
    refine (ih hlater hnodup (fun other hother => hwaits other (List.mem_cons_of_mem _ hother))
      hrest).trans ?_
    congr 2
    · funext other
      by_cases hother : other = name
      · subst hother
        by_cases hvalid : (getConsignment other).Valid
        · simp [BlindedWorld.settle, hvalid]
        · simp [BlindedWorld.settle, hvalid]
      · by_cases hvalid : (getConsignment name).Valid
        · simp [BlindedWorld.settle, hvalid, hother]
        · simp [BlindedWorld.settle, hvalid, hother]
    · cases hanswer : (getConsignment name).answer? name with
      | none => simp [BlindedWorld.settle, hanswer]
      | some x => simp [BlindedWorld.settle, hanswer]

end Settle

/-- What the files say when no `receiveasset` was torn. -/
theorem BlindedReached.waits {w : BlindedWorld C} (h : BlindedReached conceal inputs w)
    (hwhole : ∀ graphSeal, .receiveasset graphSeal 2 ∉ inputs) {name : Text} (hname : w.dir name ≠ none) :
    ∃ info, w.dir name = some (some info) := by
  obtain ⟨file, hfile⟩ := Option.ne_none_iff_exists'.mp hname
  cases file with
  | some info => exact ⟨info, hfile⟩
  | none =>
    obtain ⟨input, hinput, htears⟩ := (h.torn name).mp hfile
    cases input with
    | receiveasset graphSeal stop =>
      obtain ⟨-, rfl⟩ := htears
      exact absurd hinput (hwhole graphSeal)
    | refresh => exact htears.elim

theorem not_panic_of_attempt {effects : List (BlindedEffect C)} {w : BlindedWorld C}
    (h : (attempt BlindedEffect.perform effects w).1 = true) : .panic ∉ effects := by
  intro hpanic
  obtain ⟨w', next, -, hperform⟩ := performed_of_attempt (fun _ _ _ _ _ => trivial) trivial h hpanic
  cases hperform

/-- A refresh that is not stopped from outside gets through iff no `receiveasset` was
stopped between the creation of its file and the write, and no consignment is malformed.
It then accepts every transfer the proxy has once, and removes the files of the valid ones. -/
theorem refresh_completes_iff (hfresh : FreshSeals conceal inputs) {entries : List Text}
    (hentries : Listing (blindedRun conceal inputs).dir entries)
    (getConsignment : Text → ConsignmentReply C) :
    let w := blindedRun conceal inputs
    let refreshed := attempt BlindedEffect.perform (refreshPlan conceal getConsignment w.dir entries) w
    (refreshed.1 = true ↔ (∀ graphSeal, .receiveasset graphSeal 2 ∉ inputs) ∧
      ∀ name ∈ entries, getConsignment name ≠ .malformed) ∧
    (refreshed.1 = true →
      refreshed.2.accepted =
        w.accepted ++ entries.filterMap (fun name => (getConsignment name).answer? name) ∧
      ∀ name, refreshed.2.dir name = if (getConsignment name).Valid then none else w.dir name) := by
  intro w refreshed
  have h : BlindedReached conceal inputs w := blindedRun_reached hfresh
  have hneeds (hdone : refreshed.1 = true) : (∀ graphSeal, .receiveasset graphSeal 2 ∉ inputs) ∧
      ∀ name ∈ entries, getConsignment name ≠ .malformed := by
    have hnever := not_panic_of_attempt hdone
    have hwhole : ∀ graphSeal, .receiveasset graphSeal 2 ∉ inputs := by
      intro graphSeal hinput
      have hfile := (h.torn (conceal graphSeal)).mpr ⟨_, hinput, rfl, rfl⟩
      have hentry := (hentries.complete (conceal graphSeal)).mpr (by simp [w, hfile])
      refine hnever (List.mem_flatMap.mpr ⟨_, hentry, ?_⟩)
      simp [hfile, filePlan]
    refine ⟨hwhole, fun name hname hreply => ?_⟩
    obtain ⟨info, hinfo⟩ := h.waits hwhole ((hentries.complete name).mp hname)
    refine hnever (List.mem_flatMap.mpr ⟨name, hname, ?_⟩)
    rw [h.inv.filePlan_of_waits getConsignment hinfo, hreply]
    exact List.mem_cons_self ..
  have hsettles (hclean : (∀ graphSeal, .receiveasset graphSeal 2 ∉ inputs) ∧
      ∀ name ∈ entries, getConsignment name ≠ .malformed) :=
    attempt_refreshPlan h.inv hclean.2 hentries.nodup (w := w)
      (fun name hname => h.waits hclean.1 ((hentries.complete name).mp hname)) fun _ _ => rfl
  refine ⟨⟨hneeds, fun hclean => by rw [show refreshed = _ from hsettles hclean]⟩, ?_⟩
  intro hdone
  rw [show refreshed = _ from hsettles (hneeds hdone)]
  refine ⟨rfl, fun name => ?_⟩
  by_cases hname : name ∈ entries
  · simp [hname]
  · have hnone : w.dir name = none := by
      by_contra hsome
      exact hname ((hentries.complete name).mpr hsome)
    simp [hname, hnone]

theorem refresh_completes_iff_waiting :
    let conceal : GraphSeal → Text := fun s => List.replicate s.blinding 'u'
    let inputs : List (BlindedInput Unit) := [.receiveasset ⟨⟨.fill 1, 0⟩, 1⟩ 4]
    let w := blindedRun conceal inputs
    (attempt BlindedEffect.perform
      (refreshPlan conceal (fun _ => .accepted () .valid) w.dir [['u']]) w).1 = true := by
  intro conceal inputs w
  have hentries : Listing w.dir [['u']] := by
    refine ⟨by simp, fun name => ?_⟩
    by_cases hname : name = ['u']
    · subst hname
      simp only [List.mem_singleton, true_iff]
      exact Option.some_ne_none _
    · have hnone : w.dir name = none := by
        refine (Function.update_of_ne hname ..).trans (Function.update_of_ne hname ..)
      simp [hname, hnone]
  have hfresh : FreshSeals conceal inputs := List.nodup_singleton ['u']
  refine (refresh_completes_iff hfresh hentries _).1.mpr ⟨?_, by simp⟩
  intro graphSeal hmem
  cases List.mem_singleton.mp hmem

end Reached

end RgbLightning.Rgb

import RgbLightning.Node.HandOut

/-! # Every UTXO is handed out once

The list never repeats an outpoint, and its uncoloured outpoints have not been used
for anything. Transaction identifiers are fresh, so that outputs listed later are
outputs that nothing has used either.
-/
namespace RgbLightning.Node
open MachineInt Decimal Rgb Runs

abbrev Trace := List (Act Lock RgbUtxos Note)

/-- The action hands out, covers or spends the outpoint. -/
def Uses (o : OutPoint) : Act Lock RgbUtxos Note → Prop
  | .emit (.handed x) => x = o
  | .emit (.placed x) => x = o
  | .emit (.built _ tx) => o ∈ tx.inputs
  | _ => False

def Unused (o : OutPoint) (trace : Trace) : Prop := ∀ a ∈ trace, ¬Uses o a

/-- The identifiers of the transactions built and of those they spend from. -/
def mentioned (trace : Trace) : List Txid :=
  trace.flatMap fun
    | .emit (.built _ tx) => tx.txid :: tx.inputs.map OutPoint.txid
    | _ => []

/-- A transaction has an identifier that was not mentioned before. -/
def FreshTxid (older : Trace) (act : Act Lock RgbUtxos Note) : Prop :=
  ∀ params tx, act = .emit (.built params tx) →
    tx.txid ∉ mentioned older ∧ ∀ o ∈ tx.inputs, o.txid ≠ tx.txid

/-- An outpoint that is handed out is a wallet output listed before. It has not been
handed out, has no allocation, and no transaction spends it. -/
def HandedOutLive (older : Trace) (act : Act Lock RgbUtxos Note) : Prop :=
  ∀ o, act = .emit (.handed o) → .emit (.pushed ⟨o, false⟩) ∈ older ∧ Unused o older

def handedOut (trace : Trace) : List OutPoint :=
  trace.filterMap fun
    | .emit (.handed o) => some o
    | _ => none

section Trace
variable {trace : Trace} {a : Act Lock RgbUtxos Note} {o : OutPoint}

theorem unused_concat : Unused o (trace ++ [a]) ↔ Unused o trace ∧ ¬Uses o a := by
  simp [Unused, or_imp, forall_and]

theorem mentioned_concat : mentioned (trace ++ [a]) = mentioned trace ++ mentioned [a] := by
  simp [mentioned]

theorem mem_handedOut : o ∈ handedOut trace ↔ .emit (.handed o) ∈ trace := by
  unfold handedOut
  rw [List.mem_filterMap]
  constructor
  · rintro ⟨b, hb, hbo⟩
    cases b with
    | emit e =>
      cases e with
      | handed x =>
        cases hbo
        exact hb
      | _ => cases hbo
    | _ => cases hbo
  · intro h
    exact ⟨_, h, rfl⟩

theorem handedOut_nodup (h : EachAfter HandedOutLive trace) : (handedOut trace).Nodup := by
  induction trace using List.reverseRecOn with
  | nil => exact List.nodup_nil
  | append_singleton trace a ih =>
    obtain ⟨htrace, ha⟩ := eachAfter_concat.mp h
    have hnodup := ih htrace
    have hsplit : handedOut (trace ++ [a]) = handedOut trace ++ handedOut [a] := by
      simp [handedOut]
    rw [hsplit]
    cases a with
    | emit e =>
      cases e with
      | handed o =>
        obtain ⟨-, hunused⟩ := ha o rfl
        have hnew : o ∉ handedOut trace := fun hmem => hunused _ (mem_handedOut.mp hmem) rfl
        exact List.nodup_append.mpr ⟨hnodup, List.nodup_singleton o, by
          rintro x hx y hy rfl
          exact hnew (List.mem_singleton.mp hy ▸ hx)⟩
      | _ => simpa [handedOut] using hnodup
    | _ => simpa [handedOut] using hnodup

end Trace

/-- The invariant, at any point of an operation. -/
structure HandInv (s : HandView) (trace : Trace) : Prop where
  nodup : (s.file.map RgbUtxo.outpoint).Nodup
  listed : ∀ o ∈ s.file.map RgbUtxo.outpoint, o.txid ∈ mentioned trace
  pushed : ∀ o, ⟨o, false⟩ ∈ s.file → .emit (.pushed ⟨o, false⟩) ∈ trace ∨ ⟨o, false⟩ ∈ s.unnoted
  free : ∀ o, ⟨o, false⟩ ∈ s.file → Unused o trace ∨ s.owed = some o
  used : ∀ o, ¬Unused o trace → o.txid ∈ mentioned trace
  building : ∀ txid, s.building = some txid → txid ∈ mentioned trace ∧
    (∀ o ∈ s.file.map RgbUtxo.outpoint, o.txid ≠ txid) ∧
    ∀ o : OutPoint, o.txid = txid → Unused o trace ∨ o ∈ s.covered
  handed : ∀ o ∈ s.handed, ∀ params tx, .emit (.built params tx) ∈ trace → o ∉ tx.inputs
  live : EachAfter HandedOutLive trace

section Step
variable {s : HandView} {trace : Trace} {a : Act Lock RgbUtxos Note} {creates : Prop}

/-- An action that uses nothing keeps the invariant. -/
theorem HandInv.quiet (h : HandInv s trace) (ha : ∀ o, ¬Uses o a) (hmentions : mentioned [a] = [])
    {unnoted : RgbUtxos} (hnoted : ∀ u ∈ s.unnoted, a = .emit (.pushed u) ∨ u ∈ unnoted) :
    HandInv { s with unnoted := unnoted } (trace ++ [a]) := by
  have hunused : ∀ {o}, Unused o (trace ++ [a]) ↔ Unused o trace := by
    intro o
    rw [unused_concat]
    exact and_iff_left (ha o)
  have hmentioned : mentioned (trace ++ [a]) = mentioned trace := by
    rw [mentioned_concat, hmentions, List.append_nil]
  refine ⟨h.nodup, ?_, ?_, ?_, ?_, ?_, ?_, ?_⟩
  · rw [hmentioned]
    exact h.listed
  · intro o ho
    rcases h.pushed o ho with hpushed | hpending
    · exact .inl (List.mem_append_left _ hpushed)
    · rcases hnoted _ hpending with rfl | hpending
      · exact .inl (by simp)
      · exact .inr hpending
  · exact fun o ho => (h.free o ho).imp_left hunused.mpr
  · intro o ho
    rw [hmentioned]
    exact h.used o (mt hunused.mpr ho)
  · intro txid htxid
    obtain ⟨hmem, hfile, hnone⟩ := h.building txid htxid
    exact ⟨hmentioned ▸ hmem, hfile, fun o ho => (hnone o ho).imp_left hunused.mpr⟩
  · intro o ho params tx hbuilt
    rcases List.mem_append.mp hbuilt with hbuilt | hbuilt
    · exact h.handed o ho params tx hbuilt
    · cases List.mem_singleton.mp hbuilt
      exact ha o
  · refine eachAfter_concat.mpr ⟨h.live, ?_⟩
    rintro o rfl
    exact absurd rfl (ha o)

/-- Marking the outpoint handed out keeps what is listed; it is not uncoloured any more. -/
theorem HandInv.mark (h : HandInv s trace) {v : RgbUtxos} {o : OutPoint} (howed : s.owed = some o)
    (hv : MarksFirst s.file v o) :
    HandInv ((handMonitor creates).next s (.write v)) (trace ++ [.write v]) := by
  have hdrop := hv.drop
  obtain ⟨u, -, -, hmark⟩ := hv
  have houtpoints := markColored_outpoints hmark
  have hcolored : ListedColored o v := (markColored_spec hmark).1
  have hnodup : (v.map RgbUtxo.outpoint).Nodup := houtpoints ▸ h.nodup
  have hquiet := h.quiet (a := .write v) (fun o ho => ho) rfl fun o ho => .inr ho
  refine ⟨hnodup, houtpoints ▸ hquiet.listed, ?_, ?_, hquiet.used, ?_, hquiet.handed, hquiet.live⟩
  · intro x hx
    rw [hand_next_write, hdrop, List.append_nil]
    exact hquiet.pushed x (mem_of_markColored hmark hx rfl)
  · intro x hx
    rcases hquiet.free x (mem_of_markColored hmark hx rfl) with hunused | hx'
    · exact .inl hunused
    · cases howed.symm.trans hx'
      exact absurd hx (hcolored.not_uncolored hnodup)
  · intro txid htxid
    cases htxid

/-- Outputs of a fresh transaction are new to the list. -/
theorem HandInv.append (h : HandInv s trace) {v : RgbUtxos} (howed : s.owed = none)
    (hv : AppendsOutputs creates s v) :
    HandInv ((handMonitor creates).next s (.write v)) (trace ++ [.write v]) := by
  obtain ⟨txid, new, hbuilding, rfl, hdistinct, houtputs, huncolored⟩ := hv
  have hquiet := h.quiet (a := .write (s.file ++ new)) (fun o ho => ho) rfl fun o ho => .inr ho
  obtain ⟨hmentioned, hfile, hunused⟩ := hquiet.building txid hbuilding
  have hnew : ∀ o ∈ new.map RgbUtxo.outpoint, o.txid = txid := by
    intro o ho
    obtain ⟨u, hu, rfl⟩ := List.mem_map.mp ho
    exact houtputs u hu
  refine ⟨?_, ?_, ?_, ?_, hquiet.used, ?_, hquiet.handed, hquiet.live⟩
  · rw [hand_next_write, List.map_append, List.nodup_append]
    refine ⟨h.nodup, hdistinct, ?_⟩
    intro x hx y hy hxy
    subst hxy
    exact hfile x hx (hnew x hy)
  · intro o ho
    rw [hand_next_write, List.map_append, List.mem_append] at ho
    rcases ho with ho | ho
    · exact hquiet.listed o ho
    · rw [hnew o ho]
      exact hmentioned
  · intro o ho
    rw [hand_next_write, List.drop_left]
    rcases List.mem_append.mp ho with ho | ho
    · exact (hquiet.pushed o ho).imp id (List.mem_append_left _)
    · exact .inr (List.mem_append_right _ ho)
  · intro o ho
    rcases List.mem_append.mp ho with ho | ho
    · refine .inl ((hquiet.free o ho).resolve_right ?_)
      simp [howed]
    · exact .inl ((hunused o (houtputs _ ho)).resolve_right (huncolored o ho).2.2)
  · intro txid htxid
    cases htxid

theorem uses_handed {o x : OutPoint} : Uses x (.emit (.handed o)) ↔ o = x := Iff.rfl
theorem uses_placed {o x : OutPoint} : Uses x (.emit (.placed o)) ↔ o = x := Iff.rfl
theorem uses_built {params : TxParams} {tx : Tx} {x : OutPoint} :
    Uses x (.emit (.built params tx)) ↔ x ∈ tx.inputs := Iff.rfl

/-- An outpoint of the list or of the transaction being built may be used, if it is not
uncoloured afterwards save as the one handed out. -/
theorem HandInv.use (h : HandInv s trace) {o : OutPoint} {owed : Option OutPoint}
    {covered handed : List OutPoint} (huses : ∀ x, Uses x a ↔ o = x) (hmentions : mentioned [a] = [])
    (hmentioned : o.txid ∈ mentioned trace) (hkept : ∀ x ∈ s.covered, x ∈ covered)
    (hcovered : ∀ txid, s.building = some txid → o.txid = txid → o ∈ covered)
    (howed : s.owed = none) (hfree : ⟨o, false⟩ ∈ s.file → owed = some o)
    (hhanded : ∀ x ∈ handed, x ∈ s.handed ∨ Unused x trace) (hlive : HandedOutLive trace a) :
    HandInv { s with covered := covered, owed := owed, handed := handed } (trace ++ [a]) := by
  have hsame : mentioned (trace ++ [a]) = mentioned trace := by
    rw [mentioned_concat, hmentions, List.append_nil]
  refine ⟨h.nodup, hsame ▸ h.listed, ?_, ?_, ?_, ?_, ?_, eachAfter_concat.mpr ⟨h.live, hlive⟩⟩
  · exact fun x hx => (h.pushed x hx).imp (List.mem_append_left _) id
  · intro x hx
    by_cases hxo : o = x
    · subst hxo
      exact .inr (hfree hx)
    · have hunused : Unused x trace := (h.free x hx).resolve_right (by simp [howed])
      exact .inl (unused_concat.mpr ⟨hunused, mt (huses x).mp hxo⟩)
  · intro x hx
    rw [hsame]
    rw [unused_concat, not_and_or, not_not, huses] at hx
    rcases hx with hx | rfl
    · exact h.used x hx
    · exact hmentioned
  · intro txid htxid
    obtain ⟨hbuilt, hfile, hnone⟩ := h.building txid htxid
    refine ⟨hsame ▸ hbuilt, hfile, fun x hx => ?_⟩
    by_cases hxo : o = x
    · subst hxo
      exact .inr (hcovered txid htxid hx)
    · exact (hnone x hx).imp (fun hunused => unused_concat.mpr ⟨hunused, mt (huses x).mp hxo⟩) (hkept x)
  · intro x hx params tx hbuilt
    rcases List.mem_append.mp hbuilt with hbuilt | hbuilt
    · rcases hhanded x hx with hx | hx
      · exact h.handed x hx params tx hbuilt
      · exact hx _ hbuilt
    · rw [← List.mem_singleton.mp hbuilt] at hmentions
      simp [mentioned] at hmentions

/-- What is handed out is the first uncoloured entry, which nothing has used. -/
theorem HandInv.handOut (h : HandInv s trace) {o : OutPoint}
    (ho : (handMonitor creates).ok s (.emit (.handed o))) :
    HandInv ((handMonitor creates).next s (.emit (.handed o))) (trace ++ [.emit (.handed o)]) := by
  obtain ⟨⟨hnoted, howed⟩, -, u, hfirst, rfl⟩ := ho
  have hlisted := uncolored_of_firstUncolored hfirst
  have hmem : u.outpoint ∈ s.file.map RgbUtxo.outpoint := List.mem_map.mpr ⟨_, hlisted, rfl⟩
  have hunused : Unused u.outpoint trace := (h.free _ hlisted).resolve_right (by simp [howed])
  have hpushed : .emit (.pushed ⟨u.outpoint, false⟩) ∈ trace :=
    (h.pushed _ hlisted).resolve_right (by simp [hnoted])
  have hlive : HandedOutLive trace (.emit (.handed u.outpoint)) := by
    rintro _ ⟨⟩
    exact ⟨hpushed, hunused⟩
  apply h.use (fun _ => uses_handed) rfl (h.listed _ hmem) (fun _ => id) _ howed (fun _ => rfl) _ hlive
  · intro txid htxid hsame
    exact absurd hsame ((h.building txid htxid).2.1 _ hmem)
  · intro x hx
    rcases List.mem_append.mp hx with hx | hx
    · exact .inl hx
    · exact .inr (List.mem_singleton.mp hx ▸ hunused)

/-- An allocation is placed on a coloured entry or on the transaction being built. -/
theorem HandInv.place (h : HandInv s trace) {o : OutPoint}
    (ho : (handMonitor creates).ok s (.emit (.placed o))) :
    HandInv ((handMonitor creates).next s (.emit (.placed o))) (trace ++ [.emit (.placed o)]) := by
  obtain ⟨howed, ho⟩ := ho
  have hmentioned : o.txid ∈ mentioned trace := by
    rcases ho with ⟨u, hu, rfl, -⟩ | hbuilding
    · exact h.listed _ (List.mem_map_of_mem hu)
    · exact (h.building _ hbuilding).1
  have hcolored : ⟨o, false⟩ ∉ s.file := by
    rcases ho with hlisted | hbuilding
    · exact hlisted.not_uncolored h.nodup
    · exact fun hmem => (h.building _ hbuilding).2.1 o (List.mem_map_of_mem hmem) rfl
  have hfree : ⟨o, false⟩ ∈ s.file → s.owed = some o := fun hmem => absurd hmem hcolored
  exact h.use (fun _ => uses_placed) rfl hmentioned (fun _ => List.mem_append_left _)
    (fun _ _ _ => by simp) howed hfree (fun _ hx => .inl hx) (fun _ hx => by cases hx)

/-- A fresh transaction spends nothing that is uncoloured or has just been handed out. -/
theorem HandInv.built (h : HandInv s trace) {params : TxParams} {tx : Tx}
    (ho : (handMonitor creates).ok s (.emit (.built params tx)))
    (hfresh : FreshTxid trace (.emit (.built params tx))) :
    HandInv ((handMonitor creates).next s (.emit (.built params tx)))
      (trace ++ [.emit (.built params tx)]) := by
  obtain ⟨howed, hinputs⟩ := ho
  obtain ⟨hnew, hapart⟩ := hfresh params tx rfl
  have hmentions : mentioned [.emit (.built params tx)] = tx.txid :: tx.inputs.map OutPoint.txid := by
    simp [mentioned]
  have hold : ∀ {txid}, txid ∈ mentioned trace → txid ∈ mentioned (trace ++ [.emit (.built params tx)]) := by
    intro txid htxid
    rw [mentioned_concat]
    exact List.mem_append_left _ htxid
  refine ⟨h.nodup, fun o ho => hold (h.listed o ho), ?_, ?_, ?_, ?_, ?_, ?_⟩
  · exact fun x hx => (h.pushed x hx).imp (List.mem_append_left _) id
  · intro x hx
    have hunused : Unused x trace := (h.free x hx).resolve_right (by simp [howed])
    exact .inl (unused_concat.mpr ⟨hunused, fun hin => (hinputs x hin).2 hx⟩)
  · intro x hx
    rw [unused_concat, not_and_or, not_not, uses_built] at hx
    rcases hx with hx | hx
    · exact hold (h.used x hx)
    · rw [mentioned_concat, hmentions]
      exact List.mem_append_right _ (List.mem_cons_of_mem _ (List.mem_map_of_mem hx))
  · intro txid htxid
    cases htxid
    refine ⟨?_, ?_, ?_⟩
    · rw [mentioned_concat, hmentions]
      simp
    · intro o ho htxid
      exact hnew (htxid ▸ h.listed o ho)
    · intro o ho
      refine .inl (unused_concat.mpr ⟨?_, fun hin => hapart o hin ho⟩)
      by_contra hused
      exact hnew (ho ▸ h.used o hused)
  · intro x hx params' tx' hbuilt
    rcases List.mem_append.mp hbuilt with hbuilt | hbuilt
    · exact h.handed x hx params' tx' hbuilt
    · cases List.mem_singleton.mp hbuilt
      exact fun hin => (hinputs x hin).1 hx
  · exact eachAfter_concat.mpr ⟨h.live, fun _ hx => by cases hx⟩

theorem handMonitor_inv (h : HandInv s trace) (hok : (handMonitor creates).ok s a)
    (hsees : ∀ v, a ≠ .read v) (hfresh : FreshTxid trace a) :
    HandInv ((handMonitor creates).next s a) (trace ++ [a]) := by
  cases a with
  | acquire l => exact h.quiet (fun _ => id) rfl fun _ hu => .inr hu
  | release l => exact h.quiet (fun _ => id) rfl fun _ hu => .inr hu
  | read v => exact absurd rfl (hsees v)
  | write v =>
    rcases hok with ⟨o, howed, hmarks⟩ | ⟨howed, happends⟩
    · exact h.mark howed hmarks
    · exact h.append howed happends
  | emit e =>
    cases e with
    | handed o => exact h.handOut hok
    | placed o => exact h.place hok
    | built params tx => exact h.built hok hfresh
    | pushed u =>
      apply h.quiet (fun _ => id) rfl
      intro x hx
      by_cases hxu : x = u
      · exact .inl (by rw [hxu])
      · exact .inr (by simp [hx, hxu])
    | marked o => exact h.quiet (fun _ => id) rfl fun _ hu => .inr hu
    | spawned task => exact h.quiet (fun _ => id) rfl fun _ hu => .inr hu

end Step

section Run
variable {ids : ContractIdText} {p : Profile}

/-- Noted between two points of a trace. -/
def Noted (before after : Trace) (note : Note) : Prop :=
  ∃ since, after = before ++ since ∧ .emit note ∈ since

theorem Noted.concat {before after : Trace} {note : Note} (h : Noted before after note)
    (a : Act Lock RgbUtxos Note) : Noted before (after ++ [a]) note := by
  obtain ⟨since, rfl, hmem⟩ := h
  exact ⟨since ++ [a], by simp, List.mem_append_left _ hmem⟩

theorem noted_last {before after : Trace} (h : before <+: after) (note : Note) :
    Noted before (after ++ [.emit note]) note := by
  obtain ⟨since, rfl⟩ := h
  exact ⟨since ++ [.emit note], by simp, by simp⟩

theorem noted_concat {before after : Trace} {note : Note} {a : Act Lock RgbUtxos Note}
    (h : Noted before (after ++ [a]) note) (hgrown : before <+: after) :
    Noted before after note ∨ a = .emit note := by
  obtain ⟨since, hsplit, hmem⟩ := h
  obtain ⟨earlier, rfl⟩ := hgrown
  rw [List.append_assoc, List.append_cancel_left_eq] at hsplit
  subst hsplit
  rcases List.mem_append.mp hmem with hmem | hmem
  · exact .inl ⟨earlier, rfl, hmem⟩
  · exact .inr (List.mem_singleton.mp hmem).symm

/-- An output that `createutxos` asks for, of a transaction built between the two points. -/
def CreatedSince (before after : Trace) (o : OutPoint) : Prop :=
  ∃ params tx, Noted before after (.built params tx) ∧ OutputOf tx.txid o

/-- The view follows the machine. Uncoloured entries come from the start or from the
transaction just built, and what is handed out from the start. -/
structure HandView.Of (creates : Prop) (m₀ : Machine Lock RgbUtxos Note) (s : HandView)
    (m : Machine Lock RgbUtxos Note) : Prop where
  file : s.file = m.cell
  grown : m₀.trace <+: m.trace
  since : ∀ o, Noted m₀.trace m.trace (.handed o) → o ∈ s.handed
  building : ∀ txid, s.building = some txid →
    ∃ params tx, Noted m₀.trace m.trace (.built params tx) ∧ tx.txid = txid
  created : ∀ o, ⟨o, false⟩ ∈ s.file → ⟨o, false⟩ ∈ m₀.cell ∨ creates ∧ CreatedSince m₀.trace m.trace o
  handed : ∀ o ∈ s.handed, ⟨o, false⟩ ∈ m₀.cell
  inv : EachAfter FreshTxid m.trace → HandInv s m.trace

section Describe
variable {creates : Prop} {m₀ m : Machine Lock RgbUtxos Note} {s : HandView}

theorem CreatedSince.concat {before after : Trace} {o : OutPoint} (h : CreatedSince before after o)
    (a : Act Lock RgbUtxos Note) : CreatedSince before (after ++ [a]) o := by
  obtain ⟨params, tx, hnoted, ho⟩ := h
  exact ⟨params, tx, hnoted.concat a, ho⟩

theorem HandView.Of.inv_next {a : Act Lock RgbUtxos Note} (h : s.Of creates m₀ m)
    (hok : (handMonitor creates).ok s a) (hsees : ∀ v, a ≠ .read v)
    (hfresh : EachAfter FreshTxid (m.trace ++ [a])) :
    HandInv ((handMonitor creates).next s a) (m.trace ++ [a]) := by
  obtain ⟨hearlier, ha⟩ := eachAfter_concat.mp hfresh
  exact handMonitor_inv (h.inv hearlier) hok hsees ha

/-- An action that writes nothing; what it hands out or builds is in the view. -/
theorem HandView.Of.perform (h : s.Of creates m₀ m) {a : Act Lock RgbUtxos Note} {s' : HandView}
    (hcell : (m.perform a).cell = m.cell) (hfile : s'.file = s.file)
    (hold : ∀ o ∈ s.handed, o ∈ s'.handed) (hnew : ∀ o, a = .emit (.handed o) → o ∈ s'.handed)
    (hbuilding : s'.building = s.building ∨ ∃ params tx, a = .emit (.built params tx) ∧ s'.building = some tx.txid)
    (hhanded : ∀ o ∈ s'.handed, o ∈ s.handed ∨ ⟨o, false⟩ ∈ m₀.cell)
    (hinv : EachAfter FreshTxid (m.trace ++ [a]) → HandInv s' (m.trace ++ [a])) :
    s'.Of creates m₀ (m.perform a) := by
  refine ⟨hfile.trans (h.file.trans hcell.symm), h.grown.trans (List.prefix_append ..), ?_, ?_, ?_, ?_, hinv⟩
  · intro o ho
    rcases noted_concat ho h.grown with ho | ho
    · exact hold o (h.since o ho)
    · exact hnew o ho
  · intro txid htxid
    rcases hbuilding with hsame | ⟨params, tx, rfl, hnext⟩
    · obtain ⟨params, tx, hnoted, rfl⟩ := h.building txid (hsame ▸ htxid)
      exact ⟨params, tx, hnoted.concat a, rfl⟩
    · cases hnext.symm.trans htxid
      exact ⟨params, tx, noted_last h.grown _, rfl⟩
  · intro o ho
    rw [hfile] at ho
    exact (h.created o ho).imp id (And.imp id fun hcreated => hcreated.concat a)
  · exact fun o ho => (hhanded o ho).elim (h.handed o) id

theorem HandView.Of.write (h : s.Of creates m₀ m) {v : RgbUtxos}
    (hok : (handMonitor creates).ok s (.write v)) :
    ((handMonitor creates).next s (.write v)).Of creates m₀ (m.perform (.write v)) := by
  refine ⟨rfl, h.grown.trans (List.prefix_append ..), ?_, fun _ htxid => (by cases htxid), ?_, h.handed,
    h.inv_next hok (fun _ ha => by cases ha)⟩
  · intro o ho
    rcases noted_concat ho h.grown with ho | ho
    · exact h.since o ho
    · cases ho
  · intro o ho
    rcases hok with ⟨x, -, u, -, -, hmark⟩ | ⟨-, txid, new, hbuilding, rfl, houtputs⟩
    · have hbefore : ⟨o, false⟩ ∈ s.file := mem_of_markColored hmark ho rfl
      exact (h.created o hbefore).imp id (And.imp id fun hcreated => hcreated.concat _)
    · rcases List.mem_append.mp ho with ho | ho
      · exact (h.created o ho).imp id (And.imp id fun hcreated => hcreated.concat _)
      · obtain ⟨hcreates, houtput, -⟩ := houtputs.uncolored o ho
        obtain ⟨params, tx, hnoted, rfl⟩ := h.building txid hbuilding
        exact .inr ⟨hcreates, params, tx, hnoted.concat _, houtput⟩

theorem HandView.Of.handOut (h : s.Of creates m₀ m) {o : OutPoint}
    (hok : (handMonitor creates).ok s (.emit (.handed o))) :
    ((handMonitor creates).next s (.emit (.handed o))).Of creates m₀ (m.perform (.emit (.handed o))) := by
  have hinv := h.inv_next hok (fun _ ha => by cases ha)
  obtain ⟨-, hcreates, u, hfirst, rfl⟩ := hok
  have hstart : ⟨u.outpoint, false⟩ ∈ m₀.cell :=
    (h.created _ (uncolored_of_firstUncolored hfirst)).resolve_right fun hcreated => hcreates hcreated.1
  refine h.perform rfl rfl (fun _ => List.mem_append_left _) ?_ (.inl rfl) ?_ hinv
  · rintro _ ⟨⟩
    simp
  · intro x hx
    rcases List.mem_append.mp hx with hx | hx
    · exact .inl hx
    · exact .inr (List.mem_singleton.mp hx ▸ hstart)

theorem hand_describes (creates : Prop) (m₀ : Machine Lock RgbUtxos Note) :
    (handMonitor creates).Describes (HandView.Of creates m₀) where
  sees := fun h => h.file.symm
  acquire := fun h hok _ => h.perform rfl rfl (fun _ => id) (fun _ ha => by cases ha) (.inl rfl)
    (fun _ => .inl) (h.inv_next hok fun _ ha => by cases ha)
  release := fun h hok => h.perform rfl rfl (fun _ => id) (fun _ ha => by cases ha) (.inl rfl)
    (fun _ => .inl) (h.inv_next hok fun _ ha => by cases ha)
  read := by
    intro s m h
    apply h.perform rfl rfl (fun _ => id) (fun _ ha => by cases ha) (.inl rfl) (fun _ => .inl)
    intro hfresh
    exact (h.inv (eachAfter_concat.mp hfresh).1).quiet (fun _ => id) rfl fun _ hu => .inr hu
  write := fun h hok => h.write hok
  emit := by
    intro s m e h hok
    have hinv := h.inv_next hok (fun _ ha => by cases ha)
    cases e with
    | handed o => exact h.handOut hok
    | built params tx =>
      exact h.perform rfl rfl (fun _ => id) (fun _ ha => by cases ha) (.inr ⟨params, tx, rfl, rfl⟩)
        (fun _ => .inl) hinv
    | _ => exact h.perform rfl rfl (fun _ => id) (fun _ ha => by cases ha) (.inl rfl) (fun _ => .inl) hinv

end Describe

/-- An allocation on a listed wallet output is one that the node has placed or announced. -/
def Assets.Known (assets : Assets) (older : Trace) : Prop :=
  ∀ id h, assets.history id = some h → ∀ o ∈ h.fungibles,
    .emit (.pushed ⟨o.sealOutpoint, false⟩) ∈ older → .emit (.placed o.sealOutpoint) ∈ older

/-- What the libraries report to an operation: known allocations, and for a sweep outputs
of channels, which are not wallet outputs on the list. -/
def Operation.ReportsTrue (older : Trace) : Operation → Prop
  | command (.sendasset _ calls) => calls.assets.Known older
  | event (.fundingGenerationReady calls) => calls.assets.Known older
  | event (.spendableOutputs outputs) =>
    ∀ output ∈ outputs, .emit (.pushed ⟨output.outpoint, false⟩) ∉ older
  | _ => True

/-- No transaction spends what has been handed out meanwhile. -/
def SpendsNoneHandedOut (before after : Trace) : Prop :=
  ∀ o, Noted before after (.handed o) → ∀ params tx, .emit (.built params tx) ∈ after → o ∉ tx.inputs

theorem HandInv.restart {s : HandView} {trace : Trace} (h : HandInv s trace) (hdone : s.Done) :
    HandInv (.start s.file) trace := by
  obtain ⟨hnoted, howed⟩ := hdone
  refine ⟨h.nodup, h.listed, ?_, ?_, h.used, fun _ htxid => (by cases htxid), fun _ ho => (by cases ho),
    h.live⟩
  · exact fun o ho => .inl ((h.pushed o ho).resolve_right (by simp [hnoted]))
  · exact fun o ho => .inl ((h.free o ho).resolve_right (by simp [howed]))

theorem HandInv.apart {utxos : RgbUtxos} {trace : Trace} (h : HandInv (.start utxos) trace)
    {op : Operation} (hreports : op.ReportsTrue trace) : op.Apart utxos := by
  have hpushed : ∀ o, ⟨o, false⟩ ∈ utxos → .emit (.pushed ⟨o, false⟩) ∈ trace :=
    fun o ho => (h.pushed o ho).resolve_right List.not_mem_nil
  have hknown : ∀ assets : Assets, assets.Known trace → assets.Apart utxos := by
    intro assets hassets id history hhistory o ho hlisted
    have hunused : Unused o.sealOutpoint trace := (h.free _ hlisted).resolve_right (by simp [HandView.start])
    exact hunused _ (hassets id history hhistory o ho (hpushed _ hlisted)) rfl
  cases op with
  | command c =>
    cases c with
    | sendasset words calls => exact hknown _ hreports
    | _ => trivial
  | event e =>
    cases e with
    | fundingGenerationReady calls => exact hknown _ hreports
    | spendableOutputs outputs =>
      exact fun output houtput hlisted => hreports output houtput (hpushed _ hlisted)
    | _ => trivial
  | spawned task => trivial

/-- Between operations. The list is in order, and its uncoloured outpoints are among the
given ones. -/
structure OnceInv (created : OutPoint → Prop) (s : NodeState) : Prop where
  nodup : (s.machine.cell.map RgbUtxo.outpoint).Nodup
  created : ∀ o, ⟨o, false⟩ ∈ s.machine.cell → created o
  live : EachAfter HandedOutLive s.machine.trace
  ready : s.status = .running → HandInv (.start s.machine.cell) s.machine.trace

theorem noted_self {trace : Trace} {note : Note} : ¬Noted trace trace note := by
  rintro ⟨since, hsplit, hmem⟩
  have hnil : since = [] := by simpa using hsplit
  rw [hnil] at hmem
  cases hmem

/-- One operation hands out created outpoints only, and spends none of those. What it lists
uncoloured is created by it. -/
theorem nodeStep_once {created : OutPoint → Prop} {s : NodeState} {op : Operation}
    (htxs : op.TxsRespect) (hreports : op.ReportsTrue s.machine.trace) (hs : OnceInv created s)
    (hfresh : EachAfter FreshTxid (nodeStep ids p s op).machine.trace) :
    OnceInv (fun o => created o ∨
      op.Creates ∧ CreatedSince s.machine.trace (nodeStep ids p s op).machine.trace o)
      (nodeStep ids p s op) ∧
    (∀ o, Noted s.machine.trace (nodeStep ids p s op).machine.trace (.handed o) → created o) ∧
    SpendsNoneHandedOut s.machine.trace (nodeStep ids p s op).machine.trace := by
  unfold nodeStep at hfresh ⊢
  split
  · rename_i hrunning
    rw [if_pos hrunning] at hfresh
    have hready := hs.ready hrunning
    have hstart : (HandView.start s.machine.cell).Of op.Creates s.machine s.machine :=
      ⟨rfl, List.prefix_refl _, fun _ ho => absurd ho noted_self, fun _ htxid => (by cases htxid),
        fun _ => .inl, fun _ ho => (by cases ho), fun _ => hready⟩
    obtain ⟨view, hview, hreturned, -⟩ := Task.wp_exec (hand_describes op.Creates s.machine) hstart
      (operation_hand ids p op htxs (hready.apart hreports))
    have hinv := hview.inv hfresh
    refine ⟨⟨hview.file ▸ hinv.nodup, ?_, hinv.live, ?_⟩, ?_, ?_⟩
    · exact fun o ho => (hview.created o (hview.file ▸ ho)).imp (hs.created o) id
    · intro hstatus
      cases hexit : ((op.program p ids).exec s.machine).1 with
      | returned u =>
        have hrestart := hinv.restart (hreturned u hexit)
        rwa [hview.file] at hrestart
      | aborted => simp [hexit, Exit.status] at hstatus
      | blocked l => simp [hexit, Exit.status] at hstatus
    · exact fun o ho => hs.created o (hview.handed o (hview.since o ho))
    · exact fun o ho => hinv.handed o (hview.since o ho)
  · exact ⟨⟨hs.nodup, fun o ho => .inl (hs.created o ho), hs.live, hs.ready⟩,
      fun _ ho => absurd ho noted_self, fun _ ho => absurd ho noted_self⟩

theorem trace_prefix_nodeStep (s : NodeState) (op : Operation) :
    s.machine.trace <+: (nodeStep ids p s op).machine.trace := by
  unfold nodeStep
  split
  · exact Task.trace_prefix_exec _ _
  · exact List.prefix_refl _

/-- One of the operations is a `createutxos` that has built the transaction of the output. -/
def Created (ids : ContractIdText) (p : Profile) (ops : List Operation) (o : OutPoint) : Prop :=
  ∃ before op after, ops = before ++ op :: after ∧ op.Creates ∧
    CreatedSince (nodeRun ids p before).machine.trace (nodeRun ids p (before ++ [op])).machine.trace o

theorem Created.concat {ops : List Operation} {o : OutPoint} (h : Created ids p ops o) (op : Operation) :
    Created ids p (ops ++ [op]) o := by
  obtain ⟨before, create, after, rfl, hcreate⟩ := h
  exact ⟨before, create, after ++ [op], by simp, hcreate⟩

/-- What an operation hands out has been created by an earlier one. -/
def HandsCreated (ids : ContractIdText) (p : Profile) (older : List Operation) (op : Operation) : Prop :=
  ∀ o, Noted (nodeRun ids p older).machine.trace (nodeRun ids p (older ++ [op])).machine.trace (.handed o) →
    Created ids p older o

theorem nodeRun_once {ops : List Operation} (htxs : ∀ op ∈ ops, op.TxsRespect)
    (hfresh : EachAfter FreshTxid (nodeRun ids p ops).machine.trace)
    (hreports : EachAfter (fun older op => op.ReportsTrue (nodeRun ids p older).machine.trace) ops) :
    OnceInv (Created ids p ops) (nodeRun ids p ops) ∧ EachAfter (HandsCreated ids p) ops ∧
    EachAfter (fun older op => SpendsNoneHandedOut
      (nodeRun ids p older).machine.trace (nodeRun ids p (older ++ [op])).machine.trace) ops := by
  induction ops using List.reverseRecOn with
  | nil =>
    have hnew : HandInv (.start []) [] := by
      refine ⟨List.nodup_nil, ?_, ?_, ?_, ?_, ?_, ?_, eachAfter_nil _⟩ <;> simp [HandView.start, Unused]
    exact ⟨⟨List.nodup_nil, fun _ ho => (by cases ho), eachAfter_nil _, fun _ => hnew⟩, eachAfter_nil _,
      eachAfter_nil _⟩
  | append_singleton ops op ih =>
    obtain ⟨hbefore, hop⟩ := eachAfter_concat.mp hreports
    have hstep : nodeRun ids p (ops ++ [op]) = nodeStep ids p (nodeRun ids p ops) op := run_concat ..
    have hearlier := hfresh.initial (hstep ▸ trace_prefix_nodeStep _ _)
    obtain ⟨hinv, hcreated, hspends⟩ := ih (fun o ho => htxs o (List.mem_append_left _ ho)) hearlier hbefore
    obtain ⟨hnext, hhanded, hnone⟩ := nodeStep_once (htxs op (by simp)) hop hinv (hstep ▸ hfresh)
    rw [← hstep] at hnext hhanded hnone
    refine ⟨⟨hnext.nodup, ?_, hnext.live, hnext.ready⟩, eachAfter_concat.mpr ⟨hcreated, hhanded⟩,
      eachAfter_concat.mpr ⟨hspends, hnone⟩⟩
    intro o ho
    rcases hnext.created o ho with hold | ⟨hcreates, hsince⟩
    · exact hold.concat op
    · exact ⟨ops, op, [], rfl, hcreates, hsince⟩

/-- In every run the list repeats no outpoint and no UTXO is handed out twice. Each is then
an output that an earlier `createutxos` has asked for, listed, without an allocation, and
spent by no transaction, neither an earlier one nor one of the operation that takes it. -/
theorem utxos_handed_once (ops : List Operation) (htxs : ∀ op ∈ ops, op.TxsRespect)
    (hfresh : EachAfter FreshTxid (nodeRun ids p ops).machine.trace)
    (hreports : EachAfter (fun older op => op.ReportsTrue (nodeRun ids p older).machine.trace) ops) :
    ((nodeRun ids p ops).machine.cell.map RgbUtxo.outpoint).Nodup ∧
    (handedOut (nodeRun ids p ops).machine.trace).Nodup ∧
    EachAfter HandedOutLive (nodeRun ids p ops).machine.trace ∧
    EachAfter (HandsCreated ids p) ops ∧
    EachAfter (fun older op => SpendsNoneHandedOut (nodeRun ids p older).machine.trace
      (nodeRun ids p (older ++ [op])).machine.trace) ops := by
  obtain ⟨hinv, hcreated, hspends⟩ := nodeRun_once htxs hfresh hreports
  exact ⟨hinv.nodup, handedOut_nodup hinv.live, hinv.live, hcreated, hspends⟩

def builtTxs : Act Lock RgbUtxos Note → List Tx
  | .emit (.built _ tx) => [tx]
  | _ => []

theorem freshTxid_iff {older : Trace} {act : Act Lock RgbUtxos Note} : FreshTxid older act ↔
    ∀ tx ∈ builtTxs act,
      (∀ t ∈ mentioned older, t ≠ tx.txid) ∧ ∀ o ∈ tx.inputs, o.txid ≠ tx.txid := by
  cases act with
  | emit e => cases e <;> simp [FreshTxid, builtTxs, -Subtype.forall, List.forall_mem_ne']
  | _ => simp [FreshTxid, builtTxs]

instance (older : Trace) (act : Act Lock RgbUtxos Note) : Decidable (FreshTxid older act) :=
  decidable_of_iff _ freshTxid_iff.symm

/-- The contract identifier is written as one word. -/
def usdtOnly : ContractIdText :=
  ⟨fun text => if text = "usdt".toList then some (Bytes32.fill 7) else none, fun _ => "usdt".toList⟩

/-- UTXOs are created. An asset is issued on the first and another received on the second;
60 units of 100 are sent, with the change on the third. A channel is then funded with 30
of the 40 units left, and an output of a closed channel is swept. -/
def issueReceiveSend : List Operation :=
  [.command (.createutxos ⟨200000, [(⟨Bytes32.fill 1, 0⟩, 200000)],
      oneCoin ⟨Bytes32.fill 1, 0⟩ (Bytes32.fill 2)⟩),
    .command (.issueasset ["100".toList, "USDT".toList, "Tether".toList, "0".toList]
      fun _ _ => some (Bytes32.fill 7)),
    .command (.receiveasset fun _ => true),
    .command (.sendasset ["usdt".toList, "60".toList, "txob1".toList] ⟨unitsOf ⟨Bytes32.fill 2, 0⟩ 100,
      fun _ => true, oneCoin ⟨Bytes32.fill 2, 0⟩ (Bytes32.fill 3), true, true, true⟩),
    .event (.fundingGenerationReady ⟨some ⟨Bytes32.fill 7, 30, 0⟩, unitsOf ⟨Bytes32.fill 2, 2⟩ 40,
      oneCoin ⟨Bytes32.fill 2, 2⟩ (Bytes32.fill 4), true, true, true, .valid⟩),
    .event (.spendableOutputs
      [⟨⟨Bytes32.fill 9, 1⟩, some .valid, some (Bytes32.fill 5), some 0, true⟩])]

theorem unitsOf_known {coin : OutPoint} {units : ℕ} {older : Trace} (h : .emit (.placed coin) ∈ older) :
    (unitsOf coin units).Known older := by
  intro id history hhistory o ho _
  cases hhistory
  rwa [List.mem_singleton.mp ho]

theorem utxos_handed_once_issueReceiveSend :
    handedOut (nodeRun usdtOnly .release issueReceiveSend).machine.trace =
      [⟨Bytes32.fill 2, 0⟩, ⟨Bytes32.fill 2, 1⟩, ⟨Bytes32.fill 2, 2⟩] ∧
    EachAfter HandedOutLive (nodeRun usdtOnly .release issueReceiveSend).machine.trace ∧
    EachAfter (HandsCreated usdtOnly .release) issueReceiveSend := by
  have htxs : ∀ op ∈ issueReceiveSend, op.TxsRespect := by
    intro op hop
    simp only [issueReceiveSend, List.mem_cons, List.not_mem_nil, or_false] at hop
    rcases hop with rfl | rfl | rfl | rfl | rfl | rfl
    · exact fun _ _ => oneCoin_respects
    · trivial
    · trivial
    · exact fun _ _ => oneCoin_respects
    · exact fun _ _ => oneCoin_respects
    · trivial
  have hreports : EachAfter (fun older op =>
      op.ReportsTrue (nodeRun usdtOnly .release older).machine.trace) issueReceiveSend := by
    rw [eachAfter_iff_getElem]
    intro i hi
    match i, hi with
    | 0, _ => trivial
    | 1, _ => trivial
    | 2, _ => trivial
    | 3, _ => exact unitsOf_known (by decide)
    | 4, _ => exact unitsOf_known (by decide)
    | 5, _ =>
      intro output houtput
      cases List.mem_singleton.mp houtput
      decide
  obtain ⟨-, -, hlive, hcreated, -⟩ :=
    utxos_handed_once issueReceiveSend htxs (by decide) hreports
  exact ⟨by decide, hlive, hcreated⟩

end Run

end RgbLightning.Node

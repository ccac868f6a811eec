import RgbLightning.Base.Task

/-! # Monitors and weakest preconditions of tasks

A monitor follows the actions of a task in a state of its own and says which
actions are in order. `wp` holds of a task when all its paths are in order and
every normal end satisfies the postcondition.
-/
namespace RgbLightning
variable {L V E α β σ : Type}

structure Monitor (L V E σ : Type) where
  /-- The values a read may return. -/
  sees : σ → V → Prop
  ok : σ → Act L V E → Prop
  next : σ → Act L V E → σ

namespace Task
variable (M : Monitor L V E σ)

def wp : Task L V E α → (α → σ → Prop) → σ → Prop
  | ret a, post, s => post a s
  | abort, _, _ => True
  | acquire l k, post, s => M.ok s (.acquire l) ∧ k.wp post (M.next s (.acquire l))
  | release l k, post, s => M.ok s (.release l) ∧ k.wp post (M.next s (.release l))
  | read k, post, s => ∀ v, M.sees s v → (k v).wp post (M.next s (.read v))
  | write v k, post, s => M.ok s (.write v) ∧ k.wp post (M.next s (.write v))
  | emit e k, post, s => M.ok s (.emit e) ∧ k.wp post (M.next s (.emit e))

variable {M} {post : α → σ → Prop} {s : σ}

@[simp] theorem wp_ret (a : α) : (ret a : Task L V E α).wp M post s ↔ post a s := Iff.rfl
@[simp] theorem wp_abort : (abort : Task L V E α).wp M post s ↔ True := Iff.rfl

@[simp] theorem wp_bind {x : Task L V E β} {f : β → Task L V E α} :
    (x.bind f).wp M post s ↔ x.wp M (fun b s => (f b).wp M post s) s := by
  induction x generalizing s with
  | ret b => rfl
  | abort => rfl
  | acquire l k ih => exact and_congr_right fun _ => ih
  | release l k ih => exact and_congr_right fun _ => ih
  | read k ih => exact forall_congr' fun v => imp_congr_right fun _ => ih v
  | write v k ih => exact and_congr_right fun _ => ih
  | emit e k ih => exact and_congr_right fun _ => ih

@[simp] theorem wp_lock {post : Unit → σ → Prop} (l : L) :
    (lock l : Task L V E Unit).wp M post s ↔
      M.ok s (.acquire l) ∧ post () (M.next s (.acquire l)) := Iff.rfl

@[simp] theorem wp_unlock {post : Unit → σ → Prop} (l : L) :
    (unlock l : Task L V E Unit).wp M post s ↔
      M.ok s (.release l) ∧ post () (M.next s (.release l)) := Iff.rfl

@[simp] theorem wp_get {post : V → σ → Prop} :
    (get : Task L V E V).wp M post s ↔ ∀ v, M.sees s v → post v (M.next s (.read v)) := Iff.rfl

@[simp] theorem wp_put {post : Unit → σ → Prop} (v : V) :
    (put v : Task L V E Unit).wp M post s ↔
      M.ok s (.write v) ∧ post () (M.next s (.write v)) := Iff.rfl

@[simp] theorem wp_note {post : Unit → σ → Prop} (e : E) :
    (note e : Task L V E Unit).wp M post s ↔
      M.ok s (.emit e) ∧ post () (M.next s (.emit e)) := Iff.rfl

@[simp] theorem wp_expect (o : Option α) :
    (expect o : Task L V E α).wp M post s ↔ ∀ a, o = some a → post a s := by
  cases o <;> simp [expect]

@[simp] theorem wp_ite {c : Prop} [Decidable c] {x y : Task L V E α} :
    (if c then x else y).wp M post s ↔ (c → x.wp M post s) ∧ (¬c → y.wp M post s) := by
  by_cases h : c <;> simp [h]

theorem wp_mono {x : Task L V E α} {post' : α → σ → Prop} (h : ∀ a s, post a s → post' a s)
    (hx : x.wp M post s) : x.wp M post' s := by
  induction x generalizing s with
  | ret a => exact h a s hx
  | abort => trivial
  | acquire l k ih => exact ⟨hx.1, ih hx.2⟩
  | release l k ih => exact ⟨hx.1, ih hx.2⟩
  | read k ih => exact fun v hv => ih v (hx v hv)
  | write v k ih => exact ⟨hx.1, ih hx.2⟩
  | emit e k ih => exact ⟨hx.1, ih hx.2⟩

theorem wp_forEach {I : σ → Prop} {f : β → Task L V E Unit} {xs : List β}
    (hbody : ∀ b ∈ xs, ∀ s, I s → (f b).wp M (fun _ s => I s) s) (hs : I s) :
    (forEach f xs).wp M (fun _ s => I s) s := by
  induction xs generalizing s with
  | nil => exact hs
  | cons b xs ih =>
    have hfirst := hbody b (List.mem_cons_self ..) s hs
    have hrest : ∀ s, I s → (forEach f xs).wp M (fun _ s => I s) s := by
      intro s hs
      apply ih _ hs
      intro c hc
      exact hbody c (List.mem_cons_of_mem _ hc)
    rw [forEach, wp_bind]
    exact wp_mono (fun _ => hrest) hfirst

end Task

/-- Whatever `M'` accepts, `M` accepts, in related states. -/
structure Monitor.Simulates {τ : Type} (M : Monitor L V E σ) (M' : Monitor L V E τ)
    (R : σ → τ → Prop) : Prop where
  sees : ∀ {s t v}, R s t → M.sees s v → M'.sees t v
  read : ∀ {s t v}, R s t → M.sees s v → R (M.next s (.read v)) (M'.next t (.read v))
  ok : ∀ {s t a}, R s t → M'.ok t a → M.ok s a
  next : ∀ {s t a}, R s t → M'.ok t a → R (M.next s a) (M'.next t a)

theorem Task.wp_of_simulates {τ : Type} {M : Monitor L V E σ} {M' : Monitor L V E τ}
    {R : σ → τ → Prop} (h : M.Simulates M' R) {x : Task L V E α} {post : α → σ → Prop}
    {post' : α → τ → Prop} (hpost : ∀ a s t, R s t → post' a t → post a s) {s : σ} {t : τ}
    (hR : R s t) (hx : x.wp M' post' t) : x.wp M post s := by
  induction x generalizing s t with
  | ret a => exact hpost a s t hR hx
  | abort => trivial
  | acquire l k ih => exact ⟨h.ok hR hx.1, ih (h.next hR hx.1) hx.2⟩
  | release l k ih => exact ⟨h.ok hR hx.1, ih (h.next hR hx.1) hx.2⟩
  | read k ih => exact fun v hv => ih v (h.read hR hv) (hx v (h.sees hR hv))
  | write v k ih => exact ⟨h.ok hR hx.1, ih (h.next hR hx.1) hx.2⟩
  | emit e k ih => exact ⟨h.ok hR hx.1, ih (h.next hR hx.1) hx.2⟩

/-- The monitor state describes the machine, and keeps describing it. -/
structure Monitor.Describes [DecidableEq L] (M : Monitor L V E σ) (R : σ → Machine L V E → Prop) :
    Prop where
  sees : ∀ {s m}, R s m → M.sees s m.cell
  acquire : ∀ {s m l}, R s m → M.ok s (.acquire l) → m.held l = false →
    R (M.next s (.acquire l)) (m.perform (.acquire l))
  release : ∀ {s m l}, R s m → M.ok s (.release l) → R (M.next s (.release l)) (m.perform (.release l))
  read : ∀ {s m}, R s m → R (M.next s (.read m.cell)) (m.perform (.read m.cell))
  write : ∀ {s m v}, R s m → M.ok s (.write v) → R (M.next s (.write v)) (m.perform (.write v))
  emit : ∀ {s m e}, R s m → M.ok s (.emit e) → R (M.next s (.emit e)) (m.perform (.emit e))

/-- A task whose paths are in order runs in order, and ends as `wp` says. -/
theorem Task.wp_exec [DecidableEq L] {M : Monitor L V E σ} {R : σ → Machine L V E → Prop}
    (hR : M.Describes R) {x : Task L V E α} {post : α → σ → Prop} {s : σ} {m : Machine L V E}
    (hs : R s m) (hx : x.wp M post s) :
    ∃ s', R s' (x.exec m).2 ∧
      (∀ a, (x.exec m).1 = .returned a → post a s') ∧
      ∀ l, (x.exec m).1 = .blocked l → M.ok s' (.acquire l) ∧ (x.exec m).2.held l = true := by
  induction x generalizing s m with
  | ret a => exact ⟨s, hs, by simpa [exec] using hx, by simp [exec]⟩
  | abort => exact ⟨s, hs, by simp [exec], by simp [exec]⟩
  | acquire l k ih =>
    unfold exec
    by_cases hl : m.held l = true
    · rw [if_pos hl]
      exact ⟨s, hs, by simp, by simpa [hl] using hx.1⟩
    · rw [if_neg hl]
      have hfree : m.held l = false := Bool.eq_false_iff.mpr hl
      exact ih (hR.acquire hs hx.1 hfree) hx.2
  | release l k ih => exact ih (hR.release hs hx.1) hx.2
  | read k ih => exact ih m.cell (hR.read hs) (hx m.cell (hR.sees hs))
  | write v k ih => exact ih (hR.write hs hx.1) hx.2
  | emit e k ih => exact ih (hR.emit hs hx.1) hx.2

end RgbLightning

import Mathlib.Data.List.Chain
import Mathlib.Data.List.Induction

/-!
# Runs of a partial transition function

A machine is a function `step : σ → ι → Option σ`, where `none` means that the
input is refused (an assertion fails, a check rejects). A run feeds a word of
inputs to it and survives only if no step is refused. Invariants are proved
once here, for the step, and used for every run.
-/

namespace Framework

universe u v

variable {σ : Type u} {ι : Type v} {step : σ → ι → Option σ}

/-- The state after a whole word of inputs, `none` as soon as one is refused. -/
def run (step : σ → ι → Option σ) : σ → List ι → Option σ
  | s, [] => some s
  | s, x :: xs => (step s x).bind fun s' => run step s' xs

@[simp] theorem run_nil (s : σ) : run step s [] = some s := rfl

theorem run_cons (s : σ) (x : ι) (xs : List ι) :
    run step s (x :: xs) = (step s x).bind fun s' => run step s' xs := rfl

theorem run_cons_eq_some {s t : σ} {x : ι} {xs : List ι} :
    run step s (x :: xs) = some t ↔ ∃ s', step s x = some s' ∧ run step s' xs = some t := by
  rw [run_cons, Option.bind_eq_some_iff]

theorem run_append (s : σ) (xs ys : List ι) :
    run step s (xs ++ ys) = (run step s xs).bind fun t => run step t ys := by
  induction xs generalizing s with
  | nil => rw [List.nil_append, run_nil, Option.bind_some]
  | cons x xs ih =>
      rw [List.cons_append, run_cons, run_cons, Option.bind_assoc]
      exact Option.bind_congr fun s' _ => ih s'

theorem run_append_eq_some {s u : σ} {xs ys : List ι} :
    run step s (xs ++ ys) = some u ↔ ∃ t, run step s xs = some t ∧ run step t ys = some u := by
  rw [run_append, Option.bind_eq_some_iff]

theorem run_snoc_eq_some {s t : σ} {xs : List ι} {x : ι} (h : run step s xs = some t) :
    run step s (xs ++ [x]) = step t x := by
  rw [run_append, h, Option.bind_some, run_cons]
  simp

/-- What holds at the start and is kept by every accepted step holds after
every accepted run. -/
theorem run_invariant (Inv : σ → Prop)
    (hstep : ∀ s x s', Inv s → step s x = some s' → Inv s') {s t : σ} {xs : List ι}
    (hs : Inv s) (h : run step s xs = some t) : Inv t := by
  induction xs generalizing s with
  | nil => exact Option.some.inj h ▸ hs
  | cons x xs ih =>
      obtain ⟨s', hx, hrest⟩ := run_cons_eq_some.mp h
      exact ih (hstep s x s' hs hx) hrest

/-- A machine that decodes its inputs runs on the words of decodable inputs, as
the machine it decodes for does. -/
theorem run_decode_eq_some {κ : Type*} {decode : κ → Option ι} {s t : σ} {ys : List κ} :
    run (fun s y => (decode y).bind (step s)) s ys = some t ↔
      ∃ xs, ys.map decode = xs.map some ∧ run step s xs = some t := by
  induction ys generalizing s with
  | nil => simp
  | cons y ys ih =>
      rw [run_cons_eq_some]
      constructor
      · rintro ⟨s', hy, hrest⟩
        obtain ⟨x, hx, hstep⟩ := Option.bind_eq_some_iff.mp hy
        obtain ⟨xs, hxs, hrun⟩ := ih.mp hrest
        refine ⟨x :: xs, ?_, run_cons_eq_some.mpr ⟨s', hstep, hrun⟩⟩
        rw [List.map_cons, List.map_cons, hx, hxs]
      · rintro ⟨xs, hxs, hrun⟩
        cases xs with
        | nil => cases hxs
        | cons x xs =>
            rw [List.map_cons, List.map_cons, List.cons.injEq] at hxs
            obtain ⟨s', hstep, hrest⟩ := run_cons_eq_some.mp hrun
            refine ⟨s', ?_, ih.mpr ⟨xs, hxs.2, hrest⟩⟩
            rw [hxs.1, Option.bind_some, hstep]

/-- If every step gains at least one in `f`, a run gains its length. -/
theorem run_gain (f : σ → ℕ) (hstep : ∀ s x s', step s x = some s' → f s < f s') {s t : σ}
    {xs : List ι} (h : run step s xs = some t) : f s + xs.length ≤ f t := by
  induction xs generalizing s with
  | nil => exact Option.some.inj h ▸ le_rfl
  | cons x xs ih =>
      obtain ⟨s', hx, hrest⟩ := run_cons_eq_some.mp h
      have hgain : f s < f s' := hstep s x s' hx
      have htail : f s' + xs.length ≤ f t := ih hrest
      rw [List.length_cons]
      omega

section Growing

variable {f : σ → ℕ} {g : ι → ℕ}
  (hstep : ∀ s x s', step s x = some s' → f s < g x ∧ f s' = g x)
include hstep

/-- If every step raises `f` to a value of its input, these values grow along
a run. -/
theorem run_growing {s t : σ} {xs : List ι} (h : run step s xs = some t) :
    List.IsChain (· < ·) (f s :: xs.map g) := by
  induction xs generalizing s with
  | nil => exact List.isChain_singleton _
  | cons x xs ih =>
      obtain ⟨s', hx, hrest⟩ := run_cons_eq_some.mp h
      obtain ⟨hgrow, hvalue⟩ := hstep s x s' hx
      rw [List.map_cons, List.isChain_cons_cons, ← hvalue]
      exact ⟨hvalue ▸ hgrow, ih hrest⟩

theorem run_between {s t : σ} {xs : List ι} (h : run step s xs = some t) :
    f s ≤ f t ∧ ∀ x ∈ xs, f s < g x ∧ g x ≤ f t := by
  induction xs generalizing s with
  | nil =>
      refine ⟨Option.some.inj h ▸ le_rfl, ?_⟩
      intro x hx
      cases hx
  | cons x xs ih =>
      obtain ⟨s', hx, hrest⟩ := run_cons_eq_some.mp h
      obtain ⟨hgrow, hvalue⟩ := hstep s x s' hx
      obtain ⟨hle, hmem⟩ := ih hrest
      rw [hvalue] at hle hmem
      refine ⟨le_trans hgrow.le hle, ?_⟩
      intro y hy
      rcases List.mem_cons.mp hy with rfl | hy
      · exact ⟨hgrow, hle⟩
      · obtain ⟨hlo, hhi⟩ := hmem y hy
        exact ⟨lt_trans hgrow hlo, hhi⟩

end Growing

/-! ## Machines whose state records the last input

The state after a step is read off the input alone. If on states that keep an
invariant a step accepts exactly the well-formed inputs whose record is
related to the state, the accepted words are the chains of that relation. -/

section Recording

variable {Ok : ι → Prop}

/-- Accepted words are the `R`-chains of recorded states, and the run ends in
the last recorded state. -/
theorem run_eq_some_iff_isChain (Inv : σ → Prop) (record : ι → σ) (R : σ → σ → Prop)
    (hstep : ∀ s x s', Inv s →
      (step s x = some s' ↔ Ok x ∧ R s (record x) ∧ s' = record x))
    (hrecord : ∀ x, Ok x → Inv (record x)) {s t : σ} {xs : List ι} (hs : Inv s) :
    run step s xs = some t ↔
      (∀ x ∈ xs, Ok x) ∧ List.IsChain R (s :: xs.map record) ∧
        t = (xs.map record).getLastD s := by
  induction xs generalizing s with
  | nil => simp [eq_comm]
  | cons x xs ih =>
      rw [run_cons_eq_some]
      constructor
      · rintro ⟨s', hx, hrest⟩
        obtain ⟨hok, hR, rfl⟩ := (hstep s x s' hs).mp hx
        obtain ⟨hoks, hchain, hlast⟩ := (ih (hrecord x hok)).mp hrest
        refine ⟨?_, ?_, ?_⟩
        · intro y hy
          rcases List.mem_cons.mp hy with rfl | hy
          · exact hok
          · exact hoks y hy
        · rw [List.map_cons, List.isChain_cons_cons]
          exact ⟨hR, hchain⟩
        · rw [List.map_cons, List.getLastD_cons]
          exact hlast
      · rintro ⟨hoks, hchain, hlast⟩
        have hok : Ok x := hoks x List.mem_cons_self
        rw [List.map_cons, List.isChain_cons_cons] at hchain
        rw [List.map_cons, List.getLastD_cons] at hlast
        refine ⟨record x, (hstep s x _ hs).mpr ⟨hok, hchain.1, rfl⟩, ?_⟩
        apply (ih (hrecord x hok)).mpr
        refine ⟨?_, hchain.2, hlast⟩
        intro y hy
        exact hoks y (List.mem_cons_of_mem _ hy)

end Recording

/-! ## Quantities that grow along a chain -/

/-- If every link gains at least `c` in `f`, then `k` links gain at least
`k * c`. -/
theorem isChain_gain {α : Type u} {R : α → α → Prop} {f : α → ℕ} {c : ℕ}
    (hR : ∀ a b, R a b → f a + c ≤ f b) {l : List α} (hl : List.IsChain R l) (i k : ℕ)
    {a b : α} (ha : l[i]? = some a) (hb : l[i + k]? = some b) : f a + k * c ≤ f b := by
  induction k generalizing b with
  | zero =>
      have hab : a = b := Option.some.inj (ha.symm.trans hb)
      simp [hab]
  | succ k ih =>
      obtain ⟨hlt, hbval⟩ := List.getElem?_eq_some_iff.mp hb
      have hlt' : i + k < l.length := Nat.lt_of_succ_lt hlt
      have hlink : R l[i + k] b := hbval ▸ List.isChain_iff_getElem.mp hl (i + k) hlt
      calc f a + (k + 1) * c = f a + k * c + c := by rw [Nat.succ_mul, Nat.add_assoc]
        _ ≤ f l[i + k] + c := Nat.add_le_add_right (ih (List.getElem?_eq_getElem hlt')) c
        _ ≤ f b := hR _ _ hlink

/-! ## Fallible computations

How a sequence of fallible steps goes on once a step is known to succeed. -/

section Fallible

universe w

variable {ε : Type u} {ε' : Type v} {α β : Type w}

@[simp] theorem ok_bind (a : α) (f : α → Except ε β) :
    (Except.ok a >>= f) = f a := rfl

@[simp] theorem mapError_ok (a : α) (f : ε → ε') :
    (Except.ok a : Except ε α).mapError f = .ok a := rfl

@[simp] theorem toOption_ok (a : α) : (Except.ok a : Except ε α).toOption = some a := rfl

end Fallible

end Framework

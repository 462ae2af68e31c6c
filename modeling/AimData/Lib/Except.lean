/-
  Computations that may fail: how binds and traversals succeed.
-/
import Mathlib.Tactic

/-- A raised exception. -/
structure Raised where
  type : String
  message : String
  deriving DecidableEq, Repr

def raise {α : Type} (type message : String) : Except Raised α := .error ⟨type, message⟩

namespace Except

variable {ε α β : Type}

@[simp] theorem ok_bind (a : α) (f : α → Except ε β) : (Except.ok a >>= f) = f a := rfl

@[simp] theorem error_bind (e : ε) (f : α → Except ε β) :
    ((Except.error e : Except ε α) >>= f) = .error e := rfl

@[simp] theorem pure_eq_ok (a : α) : (pure a : Except ε α) = .ok a := rfl

/-- A bind succeeds iff both of its computations do. -/
theorem bind_eq_ok {x : Except ε α} {f : α → Except ε β} {b : β} :
    (x >>= f) = .ok b ↔ ∃ a, x = .ok a ∧ f a = .ok b := by
  cases x with
  | error e => simp
  | ok a => simp

theorem bind_eq_error {x : Except ε α} {f : α → Except ε β} {e : ε} :
    (x >>= f) = .error e ↔ x = .error e ∨ ∃ a, x = .ok a ∧ f a = .error e := by
  cases x with
  | error e' => simp
  | ok a => simp

theorem exists_of_isOk {x : Except ε α} (h : x.isOk = true) : ∃ a, x = .ok a := by
  cases x with
  | error e => cases h
  | ok a => exact ⟨a, rfl⟩

theorem mapError_ok {ε' : Type} {x : Except ε α} {f : ε → ε'} {a : α} :
    x.mapError f = .ok a ↔ x = .ok a := by
  cases x with
  | error e => simp [Except.mapError]
  | ok b => simp [Except.mapError]

end Except

namespace List

variable {ε α β : Type}

theorem mapM_cons_ok {f : α → Except ε β} {a : α} {l : List α} {r : List β} :
    (a :: l).mapM f = .ok r ↔ ∃ b bs, f a = .ok b ∧ l.mapM f = .ok bs ∧ r = b :: bs := by
  simp only [mapM_cons, Except.bind_eq_ok, Except.pure_eq_ok, Except.ok.injEq]
  constructor
  · rintro ⟨b, hb, bs, hbs, rfl⟩; exact ⟨b, bs, hb, hbs, rfl⟩
  · rintro ⟨b, bs, hb, hbs, rfl⟩; exact ⟨b, hb, bs, hbs, rfl⟩

theorem mapM_ok_length {f : α → Except ε β} : ∀ {l : List α} {r : List β},
    l.mapM f = .ok r → r.length = l.length
  | [], r, h => by cases h; rfl
  | a :: l, r, h => by
    obtain ⟨b, bs, -, hbs, rfl⟩ := mapM_cons_ok.1 h
    simp [mapM_ok_length hbs]

theorem mapM_ok_get {f : α → Except ε β} : ∀ {l : List α} {r : List β},
    l.mapM f = .ok r → ∀ (i : ℕ) (hl : i < l.length) (hr : i < r.length), f l[i] = .ok r[i]
  | [], r, _, i, hl, _ => by simp at hl
  | a :: l, r, h, i, hl, hr => by
    obtain ⟨b, bs, hb, hbs, rfl⟩ := mapM_cons_ok.1 h
    cases i with
    | zero => exact hb
    | succ i => exact mapM_ok_get hbs i (by simpa using hl) (by simpa using hr)

theorem mapM_ok_take {f : α → Except ε β} : ∀ {l : List α} {r : List β}, l.mapM f = .ok r →
    ∀ n : ℕ, (l.take n).mapM f = .ok (r.take n)
  | l, r, _, 0 => by rw [take_zero, take_zero]; rfl
  | [], r, h, n + 1 => by cases h; rfl
  | a :: l, r, h, n + 1 => by
    obtain ⟨b, bs, hb, hbs, rfl⟩ := mapM_cons_ok.1 h
    exact mapM_cons_ok.2 ⟨b, _, hb, mapM_ok_take hbs n, rfl⟩

/-- A traversal whose every step succeeds succeeds. -/
theorem mapM_ok_of_forall {f : α → Except ε β} : ∀ {l : List α}, (∀ a ∈ l, ∃ b, f a = .ok b) →
    ∃ r, l.mapM f = .ok r
  | [], _ => ⟨[], rfl⟩
  | a :: l, h => by
    obtain ⟨b, hb⟩ := h a (by simp)
    obtain ⟨bs, hbs⟩ := mapM_ok_of_forall (l := l) fun x hx => h x (by simp [hx])
    exact ⟨b :: bs, mapM_cons_ok.2 ⟨b, bs, hb, hbs, rfl⟩⟩

theorem mapM_ok_of_inverse {f : α → Except ε β} {g : β → α} (h : ∀ b, f (g b) = .ok b) :
    ∀ l : List β, (l.map g).mapM f = .ok l
  | [] => rfl
  | b :: l => mapM_cons_ok.2 ⟨b, l, h b, mapM_ok_of_inverse h l, rfl⟩

/-- A traversal whose every step gives a known value. -/
theorem mapM_ok_map {f : α → Except ε β} {g : α → β} {l : List α}
    (h : ∀ a ∈ l, f a = .ok (g a)) : l.mapM f = .ok (l.map g) := by
  induction l with
  | nil => rfl
  | cons a l ih =>
    exact mapM_cons_ok.2 ⟨_, _, h a mem_cons_self, ih fun b hb => h b (mem_cons_of_mem _ hb), rfl⟩

/-- A traversal succeeds iff every step does. -/
theorem mapM_ok_iff {f : α → Except ε β} {l : List α} :
    (∃ r, l.mapM f = .ok r) ↔ ∀ a ∈ l, ∃ b, f a = .ok b := by
  constructor
  · rintro ⟨r, hr⟩ a ha
    obtain ⟨i, hi, rfl⟩ := mem_iff_getElem.1 ha
    exact ⟨_, mapM_ok_get hr i hi (by rwa [mapM_ok_length hr])⟩
  · exact mapM_ok_of_forall

/-- A traversal that fails fails at a step. -/
theorem mapM_error {f : α → Except ε β} {e : ε} : ∀ {l : List α}, l.mapM f = .error e →
    ∃ a ∈ l, f a = .error e
  | [], h => by cases h
  | a :: l, h => by
    rw [mapM_cons, Except.bind_eq_error] at h
    rcases h with ha | ⟨b, -, h⟩
    · exact ⟨a, by simp, ha⟩
    · rcases Except.bind_eq_error.1 h with hl | ⟨bs, -, h⟩
      · obtain ⟨x, hx, hfail⟩ := mapM_error hl
        exact ⟨x, by simp [hx], hfail⟩
      · cases h

/-- A traversal in another order has the same values in another order. -/
theorem mapM_perm {f : α → Except ε β} {l l' : List α} (h : l.Perm l') :
    ∀ {r : List β}, l.mapM f = .ok r → ∃ r', l'.mapM f = .ok r' ∧ r'.Perm r := by
  induction h with
  | nil => exact fun hr => ⟨_, hr, Perm.refl _⟩
  | cons a _ ih =>
    intro r hr
    obtain ⟨b, bs, hb, hbs, rfl⟩ := mapM_cons_ok.1 hr
    obtain ⟨bs', hbs', hperm⟩ := ih hbs
    exact ⟨b :: bs', mapM_cons_ok.2 ⟨b, bs', hb, hbs', rfl⟩, hperm.cons b⟩
  | swap a a' l =>
    intro r hr
    obtain ⟨b, bs, hb, hbs, rfl⟩ := mapM_cons_ok.1 hr
    obtain ⟨b', bs', hb', hbs', rfl⟩ := mapM_cons_ok.1 hbs
    exact ⟨b' :: b :: bs', mapM_cons_ok.2 ⟨b', b :: bs', hb',
      mapM_cons_ok.2 ⟨b, bs', hb, hbs', rfl⟩, rfl⟩, Perm.swap b b' bs'⟩
  | trans _ _ ih ih' =>
    intro r hr
    obtain ⟨r', hr', hperm⟩ := ih hr
    obtain ⟨r'', hr'', hperm'⟩ := ih' hr'
    exact ⟨r'', hr'', hperm'.trans hperm⟩

/-- What every step of a fold keeps, it has at the end; a fold that fails fails at a step. -/
theorem foldlM_invariant {σ : Type} {f : σ → α → Except ε σ} {Inv : σ → Prop} {Failed : ε → Prop}
    (hstep : ∀ s a, Inv s → (∀ s', f s a = .ok s' → Inv s') ∧ ∀ e, f s a = .error e → Failed e)
    (l : List α) {s : σ} (hs : Inv s) :
    (∀ s', l.foldlM f s = .ok s' → Inv s') ∧ ∀ e, l.foldlM f s = .error e → Failed e := by
  induction l generalizing s with
  | nil =>
    constructor
    · intro s' h
      exact Except.ok.inj h ▸ hs
    · intro e h
      cases h
  | cons a l ih =>
    rw [foldlM_cons]
    cases hfa : f s a with
    | ok s₁ => exact ih ((hstep s a hs).1 s₁ hfa)
    | error e₁ =>
      constructor
      · intro s' h
        cases h
      · intro e h
        exact Except.error.inj h ▸ (hstep s a hs).2 e₁ hfa

end List

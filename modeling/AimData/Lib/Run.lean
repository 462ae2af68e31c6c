/-
  Runs of a labelled step relation, and the rules for them: what every step
  preserves holds at the end, and what every step relates is related across.
-/
import Mathlib.Tactic

/-- The steps of a run, with their labels in order. -/
inductive Run {σ ε : Type} (Step : σ → ε → σ → Prop) : σ → List ε → σ → Prop
  | nil {s : σ} : Run Step s [] s
  | cons {s s' s'' : σ} {e : ε} {es : List ε} :
    Step s e s' → Run Step s' es s'' → Run Step s (e :: es) s''

namespace Run

variable {σ ε : Type} {Step : σ → ε → σ → Prop} {s s' s'' : σ} {es es' : List ε}

theorem append (h : Run Step s es s') (h' : Run Step s' es' s'') : Run Step s (es ++ es') s'' := by
  induction h with
  | nil => exact h'
  | cons hs _ ih => exact .cons hs (ih h')

theorem append_inv : ∀ {es : List ε} {s : σ}, Run Step s (es ++ es') s'' →
    ∃ s', Run Step s es s' ∧ Run Step s' es' s''
  | [], _, h => ⟨_, .nil, h⟩
  | _ :: _, _, .cons hs h => by
    obtain ⟨s', h1, h2⟩ := append_inv h
    exact ⟨s', .cons hs h1, h2⟩

/-- An invariant of the steps is one of the runs. -/
theorem invariant {Inv : σ → Prop} (hstep : ∀ {s e s'}, Inv s → Step s e s' → Inv s')
    (h : Run Step s es s') (hs : Inv s) : Inv s' := by
  induction h with
  | nil => exact hs
  | cons hst _ ih => exact ih (hstep hs hst)

/-- An invariant of the steps together with the labels before them. -/
theorem history {Inv : List ε → σ → Prop} (hnil : Inv [] s)
    (hstep : ∀ {es t e t'}, Run Step s es t → Inv es t → Step t e t' → Inv (es ++ [e]) t')
    (h : Run Step s es s') : Inv es s' := by
  induction es using List.reverseRecOn generalizing s' with
  | nil =>
    cases h
    exact hnil
  | append_singleton es e ih =>
    obtain ⟨t, hes, he⟩ := append_inv h
    cases he with
    | cons hlast hrest =>
      cases hrest
      exact hstep hes (ih hes) hlast

/-- What the steps relate from invariant states, a preorder relates across runs. -/
theorem relates {Inv : σ → Prop} {R : σ → σ → Prop}
    (hstep : ∀ {s e s'}, Inv s → Step s e s' → Inv s' ∧ R s s') (hrefl : ∀ s, R s s)
    (htrans : ∀ {s s' s''}, R s s' → R s' s'' → R s s'') (h : Run Step s es s') (hs : Inv s) :
    R s s' := by
  induction h with
  | nil => exact hrefl _
  | cons hst _ ih => exact htrans (hstep hs hst).2 (ih (hstep hs hst).1)

/-- A run seen through a part of the state. -/
theorem project {σ' ε' : Type} {Step' : σ' → ε' → σ' → Prop} (part : σ → σ') (f : ε → List ε')
    (hstep : ∀ {s e s'}, Step s e s' → Run Step' (part s) (f e) (part s'))
    (h : Run Step s es s') : Run Step' (part s) (es.flatMap f) (part s') := by
  induction h with
  | nil => exact .nil
  | cons hst _ ih => exact (hstep hst).append ih

/-- What holds at the end and not at the start begins to hold at some step. -/
theorem exists_step {P : σ → Prop} (h : Run Step s es s') (hs : ¬ P s) (hs' : P s') :
    ∃ t e t', e ∈ es ∧ Step t e t' ∧ ¬ P t ∧ P t' := by
  induction h with
  | nil => exact absurd hs' hs
  | @cons t t' t'' e es hst _ ih =>
    by_cases ht : P t'
    · exact ⟨t, e, t', List.mem_cons_self, hst, hs, ht⟩
    · obtain ⟨u, f, u', hf, hu⟩ := ih ht hs'
      exact ⟨u, f, u', List.mem_cons_of_mem _ hf, hu⟩

/-- Along an invariant, a run of one kind of steps is one of another. -/
theorem mono {I : σ → Prop} {P Q : σ → ε → σ → Prop}
    (hstep : ∀ {s e s'}, I s → P s e s' → I s' ∧ Q s e s') (h : Run P s es s') (hs : I s) :
    Run Q s es s' := by
  induction h with
  | nil => exact .nil
  | cons hst _ ih => exact .cons (hstep hs hst).2 (ih (hstep hs hst).1)

/-- Along an invariant, steps may be restricted in two ways that agree. -/
theorem restrict_iff {I : σ → Prop} {P Q : σ → ε → σ → Prop}
    (hstep : ∀ {s e s'}, I s → Step s e s' → I s')
    (hiff : ∀ {s e s'}, I s → Step s e s' → (P s e s' ↔ Q s e s')) (hs : I s) :
    Run (fun s e s' => Step s e s' ∧ P s e s') s es s' ↔
      Run (fun s e s' => Step s e s' ∧ Q s e s') s es s' := by
  constructor
  · intro h
    exact h.mono (fun hi hst => ⟨hstep hi hst.1, hst.1, (hiff hi hst.1).1 hst.2⟩) hs
  · intro h
    exact h.mono (fun hi hst => ⟨hstep hi hst.1, hst.1, (hiff hi hst.1).2 hst.2⟩) hs

end Run

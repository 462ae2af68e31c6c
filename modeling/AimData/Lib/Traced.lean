/-
  Programs that record the moments they go through.

  A traced program takes steps, each a program over the state alone, and notes beside the state
  where it stands.  It shadows the program without the notes (`Shadows`); what holds at every
  moment of its runs is proved step by step (`Program.triple_step`).
-/
import AimData.Lib.Program

/-- A state with the note beside it, and the moments gone through, the last one first. -/
structure Traced (σ γ : Type) where
  state : σ
  note : γ
  moments : List (σ × γ)

namespace Program

variable {σ γ ε α β : Type}

/-- A step, and how its return changes the note. -/
def step (f : γ → γ) (x : Program σ ε α) : Program (Traced σ γ) ε α :=
  ExceptT.mk fun t => match exec x t.state with
    | (.ok a, s) => (.ok a, ⟨s, f t.note, (s, f t.note) :: t.moments⟩)
    | (.error e, s) => (.error e, ⟨s, t.note, (s, t.note) :: t.moments⟩)

/-- A step that is not recorded. -/
def unrecorded (x : Program σ ε α) : Program (Traced σ γ) ε α :=
  ExceptT.mk fun t => ((exec x t.state).1, { t with state := (exec x t.state).2 })

theorem exec_step (f : γ → γ) (x : Program σ ε α) (t : Traced σ γ) :
    exec (step f x) t = match exec x t.state with
      | (.ok a, s) => (.ok a, ⟨s, f t.note, (s, f t.note) :: t.moments⟩)
      | (.error e, s) => (.error e, ⟨s, t.note, (s, t.note) :: t.moments⟩) := rfl

theorem exec_unrecorded (x : Program σ ε α) (t : Traced σ γ) :
    exec (unrecorded x) t = ((exec x t.state).1, { t with state := (exec x t.state).2 }) := rfl

/-! ## The program without its notes -/

/-- `x` does to the state what `y` does. -/
def Shadows (x : Program (Traced σ γ) ε α) (y : Program σ ε α) : Prop :=
  ∀ t, exec y t.state = ((exec x t).1, (exec x t).2.state)

theorem shadows_pure (a : α) : Shadows (pure a : Program (Traced σ γ) ε α) (pure a) := fun _ => rfl

theorem shadows_step (f : γ → γ) (x : Program σ ε α) : Shadows (step f x) x := by
  intro t
  rw [exec_step]
  cases exec x t.state with
  | mk r s => cases r <;> rfl

theorem shadows_unrecorded (x : Program σ ε α) :
    Shadows (unrecorded x : Program (Traced σ γ) ε α) x := fun _ => rfl

theorem Shadows.bind {x : Program (Traced σ γ) ε α} {y : Program σ ε α}
    {f : α → Program (Traced σ γ) ε β} {g : α → Program σ ε β} (hx : Shadows x y)
    (hf : ∀ a, Shadows (f a) (g a)) : Shadows (x >>= f) (y >>= g) := by
  intro t
  rw [exec_bind, exec_bind, hx t]
  cases exec x t with
  | mk r t' =>
    cases r with
    | ok a => exact hf a t'
    | error e => rfl

theorem shadows_ite {c : Prop} [Decidable c] {x x' : Program (Traced σ γ) ε α}
    {y y' : Program σ ε α} (h : c → Shadows x y) (h' : ¬ c → Shadows x' y') :
    Shadows (if c then x else x') (if c then y else y') := by
  split_ifs with hc
  · exact h hc
  · exact h' hc

theorem shadows_forM {f : α → Program (Traced σ γ) ε PUnit} {g : α → Program σ ε PUnit}
    (h : ∀ a, Shadows (f a) (g a)) : ∀ l : List α, Shadows (l.forM f) (l.forM g)
  | [] => shadows_pure _
  | a :: l => (h a).bind fun _ => shadows_forM h l

theorem shadows_mapM {f : α → Program (Traced σ γ) ε β} {g : α → Program σ ε β}
    (h : ∀ a, Shadows (f a) (g a)) : ∀ l : List α, Shadows (l.mapM f) (l.mapM g)
  | [] => by
    rw [List.mapM_nil, List.mapM_nil]
    exact shadows_pure _
  | a :: l => by
    rw [List.mapM_cons, List.mapM_cons]
    exact (h a).bind fun b => (shadows_mapM h l).bind fun bs => shadows_pure _

/-! ## What holds at every moment -/

/-- `G` at the moments gone through. -/
def Always (G : σ → γ → Prop) (t : Traced σ γ) : Prop := ∀ m ∈ t.moments, G m.1 m.2

/-- `A` now, and `G` at the moments gone through. -/
def Now (G A : σ → γ → Prop) (t : Traced σ γ) : Prop := A t.state t.note ∧ Always G t

section
variable {G A : σ → γ → Prop} {B : α → σ → γ → Prop}

/-- A step from `A` to `B`, through moments of `G`. -/
theorem triple_step {f : γ → γ} {x : Program σ ε α}
    (h : ∀ n, Triple (fun s => A s n) x (fun a s => B a s (f n) ∧ G s (f n)) (fun s => G s n)) :
    Triple (Now G A) (step f x) (fun a => Now G (B a)) (Always G) := by
  intro t ht
  have hx := h t.note t.state ht.1
  rw [exec_step]
  revert hx
  cases exec x t.state with
  | mk r s =>
    cases r with
    | ok a =>
      rintro ⟨hB, hG⟩
      refine ⟨hB, fun m hm => ?_⟩
      rcases List.mem_cons.1 hm with rfl | hm
      · exact hG
      · exact ht.2 m hm
    | error e =>
      intro hG m hm
      rcases List.mem_cons.1 hm with rfl | hm
      · exact hG
      · exact ht.2 m hm

theorem triple_unrecorded {x : Program σ ε α}
    (h : ∀ n, Triple (fun s => A s n) x (fun a s => B a s n) fun _ => True) :
    Triple (Now G A) (unrecorded x) (fun a => Now G (B a)) (Always G) := by
  intro t ht
  have hx := h t.note t.state ht.1
  rw [exec_unrecorded]
  revert hx
  cases exec x t.state with
  | mk r s =>
    cases r with
    | ok a => exact fun hB => ⟨hB, ht.2⟩
    | error e => exact fun _ => ht.2

end

theorem triple_mapM {P E : σ → Prop} {f : α → Program σ ε β}
    (hf : ∀ a, Triple P (f a) (fun _ => P) E) :
    ∀ l : List α, Triple P (l.mapM f) (fun _ => P) E
  | [] => by
    rw [List.mapM_nil]
    exact triple_pure fun _ hs => hs
  | a :: l => by
    rw [List.mapM_cons]
    exact (hf a).bind fun b => (triple_mapM hf l).bind fun bs => triple_pure fun _ hs => hs

end Program

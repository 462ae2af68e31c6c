/-
  Lists related element by element, in the same order or in another.
-/
import Mathlib.Data.List.Forall2
import Mathlib.Data.List.Perm.Basic
import Mathlib.Logic.Relation

namespace AimData

/-! ## In the same order -/

/-- Items related by their values, under the same keys. -/
theorem forall₂_items {κ α β : Type} {R : α → β → Prop} {l : List (κ × α)} {m : List (κ × β)} :
    List.Forall₂ (fun f g => f.1 = g.1 ∧ R f.2 g.2) l m ↔
      l.map Prod.fst = m.map Prod.fst ∧ List.Forall₂ R (l.map Prod.snd) (m.map Prod.snd) := by
  constructor
  · intro h
    induction h with
    | nil => exact ⟨rfl, .nil⟩
    | cons hf _ ih => exact ⟨by simp [hf.1, ih.1], .cons hf.2 ih.2⟩
  · rintro ⟨hkeys, hvalues⟩
    induction l generalizing m with
    | nil =>
      cases m with
      | nil => exact .nil
      | cons g m => cases hvalues
    | cons f l ih =>
      cases m with
      | nil => cases hvalues
      | cons g m =>
        rw [List.map_cons, List.map_cons, List.cons.injEq] at hkeys
        cases hvalues with
        | cons hv hvs => exact .cons ⟨hkeys.1, hv⟩ (ih hkeys.2 hvs)

theorem forall₂_mem_right {α β : Type} {R : α → β → Prop} {l : List α} {m : List β}
    (h : List.Forall₂ R l m) {b : β} (hb : b ∈ m) : ∃ a ∈ l, R a b := by
  induction h with
  | nil => cases hb
  | cons hab _ ih =>
    rcases List.mem_cons.1 hb with rfl | hb
    · exact ⟨_, List.mem_cons_self, hab⟩
    · obtain ⟨a, ha, hR⟩ := ih hb
      exact ⟨a, List.mem_cons_of_mem _ ha, hR⟩

theorem forall₂_comp {α β γ : Type} {R : α → β → Prop} {S : β → γ → Prop} {l : List α}
    {n : List γ} : List.Forall₂ (Relation.Comp R S) l n ↔
      ∃ m, List.Forall₂ R l m ∧ List.Forall₂ S m n := by
  constructor
  · intro h
    induction h with
    | nil => exact ⟨[], .nil, .nil⟩
    | cons hac _ ih =>
      obtain ⟨b, hab, hbc⟩ := hac
      obtain ⟨m, hlm, hmn⟩ := ih
      exact ⟨b :: m, .cons hab hlm, .cons hbc hmn⟩
  · rintro ⟨m, hlm, hmn⟩
    induction hlm generalizing n with
    | nil =>
      cases hmn
      exact .nil
    | cons hab _ ih =>
      cases hmn with
      | cons hbc hmn => exact .cons ⟨_, hab, hbc⟩ (ih hmn)

theorem mapM_forall₂ {α β : Type} {f : α → Option β} {l : List α} {r : List β} :
    l.mapM f = some r ↔ List.Forall₂ (fun a b => f a = some b) l r := by
  induction l generalizing r with
  | nil => simp [eq_comm]
  | cons a l ih =>
    simp only [List.mapM_cons, Option.bind_eq_bind, Option.bind_eq_some_iff, Option.pure_def,
      Option.some.injEq, ih, List.forall₂_cons_left_iff]
    constructor
    · rintro ⟨b, hb, bs, hbs, rfl⟩
      exact ⟨b, bs, hb, hbs, rfl⟩
    · rintro ⟨b, bs, hb, hbs, rfl⟩
      exact ⟨b, hb, bs, hbs, rfl⟩

/-! ## In another order -/

/-- The second list has related elements, in any order. -/
def Rearranged {α β : Type} (R : α → β → Prop) (l : List α) (l' : List β) : Prop :=
  ∃ m, List.Forall₂ R l m ∧ m.Perm l'

theorem rearranged_eq {α : Type} {l l' : List α} (h : Rearranged Eq l l') : l.Perm l' := by
  obtain ⟨m, hm, hperm⟩ := h
  rw [List.forall₂_eq_eq_eq] at hm
  exact hm ▸ hperm

/-- What holds of the elements of one list holds of the other's. -/
theorem Rearranged.transport {α β : Type} {R : α → α → Prop} {S : α → β → Prop}
    {T : β → β → Prop} {l l' : List α} {out : List β} (h : Rearranged R l l')
    (hS : List.Forall₂ S l out) (step : ∀ a b c, R a b → S a c → ∃ d, S b d ∧ T c d) :
    ∃ out', List.Forall₂ S l' out' ∧ Rearranged T out out' := by
  obtain ⟨m, hm, hperm⟩ := h
  have hpointwise : ∃ k, List.Forall₂ S m k ∧ List.Forall₂ T out k := by
    clear hperm
    induction hm generalizing out with
    | nil =>
      cases hS
      exact ⟨[], .nil, .nil⟩
    | cons hR hl ih =>
      cases hS with
      | cons ha hS =>
        obtain ⟨d, hd, hT⟩ := step _ _ _ hR ha
        obtain ⟨k, hk, hTs⟩ := ih hS
        exact ⟨d :: k, .cons hd hk, .cons hT hTs⟩
  obtain ⟨k, hk, hT⟩ := hpointwise
  obtain ⟨out', hout, hk'⟩ := List.perm_comp_forall₂ hperm.symm hk
  exact ⟨out', hout, k, hT, hk'.symm⟩

theorem Rearranged.length {α β : Type} {R : α → β → Prop} {l : List α} {l' : List β}
    (h : Rearranged R l l') : l.length = l'.length := by
  obtain ⟨m, hm, hperm⟩ := h
  exact hm.length_eq.trans hperm.length_eq

end AimData

/-
  The temporal "since" over a list of events: some event was as it should be when it came, and no
  event after it has undone it.
-/
import Mathlib.Data.List.Basic

variable {ε : Type} {P P' : List ε → ε → Prop} {Q : ε → Prop} {es : List ε} {e : ε}

/-- Some event is `P` with the events before it, and every event since is `Q`. -/
def Since (P : List ε → ε → Prop) (Q : ε → Prop) (es : List ε) : Prop :=
  ∃ es₁ e es₂, es = es₁ ++ e :: es₂ ∧ P es₁ e ∧ ∀ e' ∈ es₂, Q e'

/-- Some event was `P` with the events before it. -/
abbrev Once (P : List ε → ε → Prop) : List ε → Prop := Since P fun _ => True

namespace Since

theorem last (h : P es e) : Since P Q (es ++ [e]) := ⟨es, e, [], rfl, h, List.forall_mem_nil _⟩

theorem append (h : Since P Q es) (he : Q e) : Since P Q (es ++ [e]) := by
  obtain ⟨es₁, e', es₂, rfl, hP, hQ⟩ := h
  refine ⟨es₁, e', es₂ ++ [e], by simp, hP, ?_⟩
  exact List.forall_mem_append.2 ⟨hQ, List.forall_mem_singleton.2 he⟩

theorem mono (h : Since P Q es) (hP : ∀ {es e}, P es e → P' es e) : Since P' Q es := by
  obtain ⟨es₁, e, es₂, hes, h, hQ⟩ := h
  exact ⟨es₁, e, es₂, hes, hP h, hQ⟩

end Since

theorem Once.append (h : Once P es) : Once P (es ++ [e]) := Since.append h trivial

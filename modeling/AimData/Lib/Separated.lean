/-
  Fields with a separator between them: where a field does not contain the separator, the
  list splits in one way there.
-/
import AimData.Lib.Utf8

namespace Separated

variable {α : Type*} {sep : α} {a a' rest rest' : List α}

/-- **The first separator splits in one way.** -/
theorem first_inj (ha : sep ∉ a) (ha' : sep ∉ a') :
    a ++ sep :: rest = a' ++ sep :: rest' ↔ a = a' ∧ rest = rest' := by
  constructor
  · intro h
    induction a generalizing a' with
    | nil =>
      cases a' with
      | nil => exact ⟨rfl, (List.cons.inj h).2⟩
      | cons x a' => exact absurd (List.mem_cons.2 (.inl (List.cons.inj h).1)) ha'
    | cons x a ih =>
      cases a' with
      | nil => exact absurd (List.mem_cons.2 (.inl (List.cons.inj h).1.symm)) ha
      | cons y a' =>
        obtain ⟨rfl, htail⟩ := List.cons.inj h
        obtain ⟨rfl, hrest⟩ := ih (fun hm => ha (List.mem_cons_of_mem _ hm))
          (fun hm => ha' (List.mem_cons_of_mem _ hm)) htail
        exact ⟨rfl, hrest⟩
  · rintro ⟨rfl, rfl⟩
    rfl

/-- **The last separator splits in one way.** -/
theorem last_inj (ha : sep ∉ a) (ha' : sep ∉ a') :
    rest ++ sep :: a = rest' ++ sep :: a' ↔ rest = rest' ∧ a = a' := by
  rw [← List.reverse_inj]
  simp only [List.reverse_append, List.reverse_cons, List.append_assoc, List.singleton_append]
  rw [first_inj (by simpa using ha) (by simpa using ha'), List.reverse_inj, List.reverse_inj,
    and_comm]

end Separated

namespace Utf8

/-- Only the NUL character is encoded with a zero byte. -/
theorem zero_notMem_encode {cs : List Char} (h : '\x00' ∉ cs) : (0 : UInt8) ∉ encode cs := by
  intro hmem
  obtain ⟨c, hc, hb⟩ := List.mem_flatMap.1 hmem
  have hlt := toNat_lt c
  have hzero : ∀ n : ℕ, n < 256 → (0 : UInt8) = UInt8.ofNat n → n = 0 := by
    intro n hn hz
    have := congrArg UInt8.toNat hz
    rw [toNat_ofNat_lt hn] at this
    exact this.symm
  unfold encodeChar at hb
  simp only at hb
  split_ifs at hb with h1 h2 h3
  · have hn : c.toNat = 0 := hzero _ (by omega) (List.mem_singleton.1 hb)
    have : c = '\x00' := Char.toNat_inj.1 hn
    exact h (this ▸ hc)
  all_goals
    simp only [List.mem_cons, List.not_mem_nil, or_false] at hb
  · rcases hb with hb | hb <;> have := hzero _ (by omega) hb <;> omega
  · rcases hb with hb | hb | hb <;> have := hzero _ (by omega) hb <;> omega
  · rcases hb with hb | hb | hb | hb <;> have := hzero _ (by omega) hb <;> omega

end Utf8

/-
  Directories that survive a crash, and the atomic replacement of a file.

  A process performs actions in order and may stop after any of them, or in the
  middle of a write: `Leaves` is what it then leaves behind.  An atomic write
  leaves the file as it was or as it was to be (`leaves_atomicWrite`).
-/
import AimData.Lib.Files

/-- Directories by name. -/
abbrev Disk (α : Type) := α → Files

namespace Disk

variable {α : Type} [DecidableEq α]

inductive Action (α : Type) where
  /-- `O_CREAT | O_EXCL` -/
  | create (dir : α) (name : String)
  | write (dir : α) (name : String) (data : Bytes)
  | replace (dir : α) (source target : String)
  /-- A file that is not there is no failure. -/
  | unlink (dir : α) (name : String)

/-- One action, unless it fails. -/
def apply (d : Disk α) : Action α → Option (Disk α)
  | .create dir name =>
    if (d dir).lookup name = none then some (Function.update d dir ((d dir).insert name []))
    else none
  | .write dir name data => do
    let old ← (d dir).lookup name
    return Function.update d dir ((d dir).insert name (old ++ data))
  | .replace dir source target => do
    let data ← (d dir).lookup source
    return Function.update d dir (((d dir).erase source).insert target data)
  | .unlink dir name => some (Function.update d dir ((d dir).erase name))

/-- The actions up to the first that fails, and whether none did. -/
def perform (d : Disk α) : List (Action α) → Disk α × Bool
  | [] => (d, true)
  | a :: l =>
    match d.apply a with
    | some d => perform d l
    | none => (d, false)

/-- The actions before a crash: `n` of them, and `k` bytes of a write that is next. -/
def cut : ℕ → ℕ → List (Action α) → List (Action α)
  | _, _, [] => []
  | 0, k, .write dir name data :: _ => [.write dir name (data.take k)]
  | 0, _, _ => []
  | n + 1, k, a :: l => a :: cut n k l

/-- What a process that sets out to perform `l` may leave behind. -/
def Leaves (d : Disk α) (l : List (Action α)) (d' : Disk α) : Prop :=
  ∃ n k, (d.perform (cut n k l)).1 = d'

/-- Write a temporary file, and move it to the name. -/
def atomicWrite (dir : α) (temporary name : String) (data : Bytes) : List (Action α) :=
  [.create dir temporary, .write dir temporary data, .replace dir temporary name,
    .unlink dir temporary]

/-! ## Performing actions -/

theorem perform_append (d : Disk α) : ∀ (l m : List (Action α)),
    d.perform (l ++ m) = if (d.perform l).2 then (d.perform l).1.perform m else d.perform l
  | [], m => rfl
  | a :: l, m => by
    rw [List.cons_append, perform, perform]
    cases h : d.apply a with
    | none => rfl
    | some d => exact perform_append d l m

theorem perform_append_ok {d d' : Disk α} {l m : List (Action α)}
    (h : d.perform (l ++ m) = (d', true)) :
    ∃ d₁, d.perform l = (d₁, true) ∧ d₁.perform m = (d', true) := by
  rw [perform_append] at h
  split_ifs at h with hl
  · exact ⟨_, Prod.ext rfl hl, h⟩
  · rw [h] at hl
    exact absurd rfl hl

omit [DecidableEq α] in
theorem cut_length : ∀ l : List (Action α), cut l.length 0 l = l
  | [] => rfl
  | a :: l => by rw [List.length_cons, cut, cut_length l]

theorem leaves_perform (d : Disk α) (l : List (Action α)) : d.Leaves l (d.perform l).1 :=
  ⟨l.length, 0, by rw [cut_length]⟩

theorem leaves_nil {d d' : Disk α} (h : d.Leaves [] d') : d' = d := by
  obtain ⟨n, k, rfl⟩ := h
  cases n <;> rfl

theorem leaves_cons {d d' : Disk α} {a : Action α} {l : List (Action α)} (h : d.Leaves (a :: l) d') :
    d' = d ∨ (∃ dir name data k, a = .write dir name data ∧
      d.apply (.write dir name (data.take k)) = some d') ∨
      ∃ d₁, d.apply a = some d₁ ∧ d₁.Leaves l d' := by
  obtain ⟨n, k, rfl⟩ := h
  cases n with
  | zero =>
    cases a with
    | write dir name data =>
      simp only [cut, perform]
      cases h : d.apply (.write dir name (data.take k)) with
      | none => exact Or.inl rfl
      | some d₁ => exact Or.inr (Or.inl ⟨dir, name, data, k, rfl, h⟩)
    | create => exact Or.inl rfl
    | replace => exact Or.inl rfl
    | unlink => exact Or.inl rfl
  | succ n =>
    simp only [cut, perform]
    cases h : d.apply a with
    | none => exact Or.inl rfl
    | some d₁ => exact Or.inr (Or.inr ⟨d₁, rfl, n, k, rfl⟩)

omit [DecidableEq α] in
theorem cut_append (k : ℕ) (m : List (Action α)) : ∀ (n : ℕ) (l : List (Action α)),
    cut n k (l ++ m) = if n < l.length then cut n k l else l ++ cut (n - l.length) k m
  | n, [] => by simp
  | 0, a :: l => by
    rw [if_pos (by simp)]
    cases a <;> rfl
  | n + 1, a :: l => by
    rw [List.cons_append, cut, cut_append k m n l]
    by_cases h : n < l.length
    · rw [if_pos h, if_pos (by simpa using h), cut]
    · rw [if_neg h, if_neg (by simpa using h), List.length_cons, Nat.add_sub_add_right,
        List.cons_append]

/-- A crash is in the first actions, or after all of them. -/
theorem leaves_append {d d' : Disk α} {l m : List (Action α)} (h : d.Leaves (l ++ m) d') :
    d.Leaves l d' ∨ ∃ d₁, d.perform l = (d₁, true) ∧ d₁.Leaves m d' := by
  obtain ⟨n, k, rfl⟩ := h
  rw [cut_append]
  by_cases hn : n < l.length
  · rw [if_pos hn]
    exact Or.inl ⟨n, k, rfl⟩
  · rw [if_neg hn, perform_append]
    by_cases hp : (d.perform l).2 = true
    · rw [if_pos hp]
      exact Or.inr ⟨_, Prod.ext rfl hp, _, k, rfl⟩
    · rw [if_neg hp]
      exact Or.inl (leaves_perform d l)

/-! ## Frames -/

/-- The files an action may change. -/
def Action.touches : Action α → α → String → Prop
  | .create dir name, dir', n => dir' = dir ∧ n = name
  | .write dir name _, dir', n => dir' = dir ∧ n = name
  | .replace dir source target, dir', n => dir' = dir ∧ (n = source ∨ n = target)
  | .unlink dir name, dir', n => dir' = dir ∧ n = name

theorem lookup_update {d : Disk α} {dir dir' : α} {fs : Files} {n : String}
    (h : dir' = dir → fs.lookup n = (d dir).lookup n) :
    (Function.update d dir fs dir').lookup n = (d dir').lookup n := by
  by_cases he : dir' = dir
  · subst he
    rw [Function.update_self, h rfl]
  · rw [Function.update_of_ne he]

/-- An action leaves every other file alone. -/
theorem apply_frame {d d' : Disk α} {a : Action α} (h : d.apply a = some d') {dir : α} {n : String}
    (hn : ¬ a.touches dir n) : (d' dir).lookup n = (d dir).lookup n := by
  cases a with
  | create dir' name =>
    rw [apply] at h
    split_ifs at h
    cases h
    refine lookup_update fun he => AList.lookup_insert_ne fun hname => hn ⟨he, hname⟩
  | write dir' name data =>
    obtain ⟨old, -, h⟩ := Option.bind_eq_some_iff.1 h
    cases h
    exact lookup_update fun he => AList.lookup_insert_ne fun hname => hn ⟨he, hname⟩
  | replace dir' source target =>
    obtain ⟨data, -, h⟩ := Option.bind_eq_some_iff.1 h
    cases h
    refine lookup_update fun he => ?_
    rw [AList.lookup_insert_ne fun hname => hn ⟨he, Or.inr hname⟩,
      AList.lookup_erase_ne fun hname => hn ⟨he, Or.inl hname⟩]
  | unlink dir' name =>
    cases h
    exact lookup_update fun he => AList.lookup_erase_ne fun hname => hn ⟨he, hname⟩

/-- What is left of a file that no action touches. -/
theorem leaves_frame {dir : α} {n : String} : ∀ {l : List (Action α)} {d d' : Disk α},
    d.Leaves l d' → (∀ a ∈ l, ¬ a.touches dir n) → (d' dir).lookup n = (d dir).lookup n
  | [], d, d', h, _ => by rw [leaves_nil h]
  | a :: l, d, d', h, hl => by
    have ha := hl a (by simp)
    rcases leaves_cons h with rfl | ⟨dir', name, data, k, rfl, h1⟩ | ⟨d₁, h1, h2⟩
    · rfl
    · exact apply_frame h1 ha
    · rw [leaves_frame h2 fun b hb => hl b (by simp [hb]), apply_frame h1 ha]

/-! ## Atomic writes -/

theorem create_ok {d d' : Disk α} {dir : α} {name : String}
    (h : d.apply (.create dir name) = some d') : (d' dir).lookup name = some [] := by
  rw [apply] at h
  split_ifs at h
  cases h
  rw [Function.update_self, AList.lookup_insert]

theorem write_ok {d d' : Disk α} {dir : α} {name : String} {data old : Bytes}
    (h : d.apply (.write dir name data) = some d') (ho : (d dir).lookup name = some old) :
    (d' dir).lookup name = some (old ++ data) := by
  obtain ⟨old', ho', h⟩ := Option.bind_eq_some_iff.1 h
  cases h
  rw [ho] at ho'
  cases ho'
  rw [Function.update_self, AList.lookup_insert]

theorem replace_ok {d d' : Disk α} {dir : α} {source target : String} {data : Bytes}
    (h : d.apply (.replace dir source target) = some d') (ho : (d dir).lookup source = some data) :
    (d' dir).lookup target = some data := by
  obtain ⟨data', ho', h⟩ := Option.bind_eq_some_iff.1 h
  cases h
  rw [ho] at ho'
  cases ho'
  rw [Function.update_self, AList.lookup_insert]

section
variable {d d' : Disk α} {dir : α} {temporary name : String} {data : Bytes}

omit [DecidableEq α] in
theorem atomicWrite_frame {dir' : α} {n : String} (hn : dir' = dir → n ≠ temporary ∧ n ≠ name) :
    ∀ a ∈ atomicWrite dir temporary name data, ¬ a.touches dir' n := by
  intro a ha
  simp only [atomicWrite, List.mem_cons, List.not_mem_nil, or_false] at ha
  rcases ha with rfl | rfl | rfl | rfl
  · exact fun h => (hn h.1).1 h.2
  · exact fun h => (hn h.1).1 h.2
  · exact fun h => h.2.elim (hn h.1).1 (hn h.1).2
  · exact fun h => (hn h.1).1 h.2

/-- **An atomic write leaves the file as it was, or as it was to be.** -/
theorem leaves_atomicWrite (hne : name ≠ temporary)
    (h : d.Leaves (atomicWrite dir temporary name data) d') :
    (d' dir).lookup name = (d dir).lookup name ∨ (d' dir).lookup name = some data := by
  rcases leaves_cons h with rfl | ⟨_, _, _, _, he, _⟩ | ⟨d₁, h1, h⟩
  · exact Or.inl rfl
  · cases he
  have f1 : (d₁ dir).lookup name = (d dir).lookup name := apply_frame h1 fun h => hne h.2
  rcases leaves_cons h with rfl | ⟨_, _, _, k, he, h2⟩ | ⟨d₂, h2, h⟩
  · exact Or.inl f1
  · cases he
    exact Or.inl ((apply_frame h2 fun h => hne h.2).trans f1)
  have f2 : (d₂ dir).lookup name = (d dir).lookup name :=
    (apply_frame h2 fun h => hne h.2).trans f1
  rcases leaves_cons h with rfl | ⟨_, _, _, _, he, _⟩ | ⟨d₃, h3, h⟩
  · exact Or.inl f2
  · cases he
  have f3 : (d₃ dir).lookup name = some data := replace_ok h3 (write_ok h2 (create_ok h1))
  refine Or.inr ?_
  rw [leaves_frame h, f3]
  intro a ha
  rw [List.mem_singleton] at ha
  subst ha
  exact fun h => hne h.2

/-- A completed atomic write has written the file. -/
theorem perform_atomicWrite (hne : name ≠ temporary)
    (h : d.perform (atomicWrite dir temporary name data) = (d', true)) :
    (d' dir).lookup name = some data := by
  rw [atomicWrite, perform] at h
  cases h1 : d.apply (.create dir temporary) with
  | none => rw [h1] at h; cases h
  | some d₁ =>
    rw [h1] at h
    simp only [perform] at h
    cases h2 : d₁.apply (.write dir temporary data) with
    | none => rw [h2] at h; cases h
    | some d₂ =>
      rw [h2] at h
      simp only at h
      cases h3 : d₂.apply (.replace dir temporary name) with
      | none => rw [h3] at h; cases h
      | some d₃ =>
        rw [h3] at h
        simp only at h
        cases h4 : d₃.apply (.unlink dir temporary) with
        | none => rw [h4] at h; cases h
        | some d₄ =>
          rw [h4] at h
          cases h
          rw [apply_frame h4 fun h => hne h.2]
          exact replace_ok h3 (write_ok h2 (create_ok h1))

/-- With a fresh temporary name an atomic write completes. -/
theorem atomicWrite_completes (h : (d dir).lookup temporary = none) :
    ∃ d', d.perform (atomicWrite dir temporary name data) = (d', true) := by
  have h1 : d.apply (.create dir temporary) =
      some (Function.update d dir ((d dir).insert temporary [])) := by rw [apply, if_pos h]
  obtain ⟨d₁, hd₁⟩ : ∃ d₁, d.apply (.create dir temporary) = some d₁ := ⟨_, h1⟩
  have h2 := create_ok hd₁
  obtain ⟨d₂, hd₂⟩ : ∃ d₂, d₁.apply (.write dir temporary data) = some d₂ := by
    rw [apply, h2]
    exact ⟨_, rfl⟩
  have h3 := write_ok hd₂ h2
  obtain ⟨d₃, hd₃⟩ : ∃ d₃, d₂.apply (.replace dir temporary name) = some d₃ := by
    rw [apply, h3]
    exact ⟨_, rfl⟩
  refine ⟨Function.update d₃ dir ((d₃ dir).erase temporary), ?_⟩
  simp only [atomicWrite, perform, hd₁, hd₂, hd₃]
  rfl

end

end Disk

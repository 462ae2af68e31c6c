/-
  Whether the limit of the wrapper holds of a query.

  The sandbox does not read a query as SQL does, so it lets one pass that closes the
  parenthesis of the wrapper itself, and one that ends in a comment.  The limit holds
  of a query just when the query is self-contained.
-/
import AimData.Lib.Except
import AimData.Lib.Numeral
import AimData.Sql.Sandbox

namespace AimData

namespace Sql

section
variable (foreign : Char → Bool)

/-- The parenthesis that the wrapper opens is closed by its own, and what follows that,
    the limit among it, is in no comment, literal or quoted name. -/
def LimitHolds (clean : List Char) (maxRows : ℕ) : Prop :=
  let text := wrapSql clean maxRows
  let closing := clean.length + (wrapperBefore.length + 1)
  SqlText.closedBy foreign text wrapperBefore.length = some closing ∧
    ∀ i, closing < i → i < text.length → SqlText.OutsideAt foreign text i

end

section
variable {foreign : Char → Bool} {unicode : Unicode}
  {sqlglot : Option (List Char → Option (List (Option Statement)))}

theorem executeSql_ok {limits : Limits} {datasets : List DatasetRecord} {sql : List Char}
    {datasetId : Option String} {wrapped : List Char}
    (h : executeSql unicode sqlglot limits datasets sql datasetId = .ok wrapped) :
    wrapped = wrapSql (cleanSql sql) limits.maxRows := by
  rw [executeSql] at h
  by_cases hlen : limits.maxLength < sql.length
  · rw [if_pos hlen] at h
    cases h
  · rw [if_neg hlen] at h
    simp only [Except.bind_eq_ok, Except.pure_eq_ok, Except.ok.injEq] at h
    obtain ⟨_, _, ids, -, _, -, rfl⟩ := h
    rfl

theorem isPlain_wrapperAfter (maxRows : ℕ) :
    (wrapperAfter maxRows).all SqlText.isPlain = true := by
  have hwords : " AS __ext_q LIMIT ".toList.all SqlText.isPlain = true := by decide +kernel
  have hdigits : (Nat.toDigits 10 maxRows).all SqlText.isPlain = true := by
    rw [List.all_eq_true]
    intro c hc
    have hdigit := Numeral.isDigit_toDigits c hc
    simp [SqlText.isPlain, Char.isAlphanum, hdigit]
  change (" AS __ext_q LIMIT ".toList ++ Nat.toDigits 10 maxRows).all SqlText.isPlain = true
  rw [List.all_append, hwords, hdigits, Bool.and_self]

/-- What follows a self-contained query is outside comments and literals. -/
theorem outside_after {clean : List Char} {maxRows i : ℕ}
    (h : SqlText.SelfContained foreign clean)
    (hi : clean.length + (wrapperBefore.length + 1) < i) :
    SqlText.OutsideAt foreign (wrapSql clean maxRows) i := by
  have hbefore : SqlText.run foreign .code wrapperBefore = .code := by rfl
  obtain ⟨n, rfl⟩ : ∃ n, i = wrapperBefore.length + (1 + (clean.length + (1 + n))) :=
    ⟨i - (clean.length + (wrapperBefore.length + 1)) - 1, by omega⟩
  have htake : (wrapSql clean maxRows).take (wrapperBefore.length + (1 + (clean.length + (1 + n)))) =
      wrapperBefore ++ '(' :: (clean ++ ')' :: (wrapperAfter maxRows).take n) := by
    rw [wrapSql, List.take_length_add_append, Nat.add_comm 1, List.take_succ_cons,
      List.take_length_add_append, Nat.add_comm 1, List.take_succ_cons]
  rw [SqlText.OutsideAt, htake, SqlText.run_append, hbefore, SqlText.run_cons,
    SqlText.step_paren rfl (.inl rfl), SqlText.run_append, SqlText.run_cons,
    SqlText.step_paren h.1 (.inr rfl)]
  refine SqlText.run_plain rfl (List.all_eq_true.2 fun c hc => ?_)
  exact List.all_eq_true.1 (isPlain_wrapperAfter maxRows) c (List.mem_of_mem_take hc)

/-- **The limit of a query** that is run holds just when the query, without the blanks
    and semicolons around it, is self-contained. -/
theorem limit_holds_iff {limits : Limits} {datasets : List DatasetRecord} {sql : List Char}
    {datasetId : Option String} {wrapped : List Char}
    (h : executeSql unicode sqlglot limits datasets sql datasetId = .ok wrapped) :
    wrapped = wrapSql (cleanSql sql) limits.maxRows ∧
      (LimitHolds foreign (cleanSql sql) limits.maxRows ↔
        SqlText.SelfContained foreign (cleanSql sql)) := by
  have hbefore : (SqlText.run foreign .code wrapperBefore).outside = true := by rfl
  refine ⟨executeSql_ok h, ?_⟩
  constructor
  · rintro ⟨hclosed, -⟩
    exact (SqlText.closedBy_wrapped hbefore).1 hclosed
  · intro hself
    exact ⟨(SqlText.closedBy_wrapped hbefore).2 hself, fun i hi _ => outside_after hself hi⟩

end

/-! ## Two queries -/

/-- The tables of Unicode, on the characters of ASCII. -/
def ascii : Unicode :=
  ⟨List.map Char.toUpper, List.map Char.toLower, fun c => c.isAlphanum || c = '_'⟩

/-- A parser that finds one query of one table. -/
def oneTable : List Char → Option (List (Option Statement)) :=
  fun _ => some [some ⟨true, false, "Select", [⟨"dataset_a", "", ""⟩], []⟩]

def oneDataset : List DatasetRecord := [⟨"a", true, "preview_ready"⟩]

theorem limit_holds_iff_table :
    LimitHolds (fun _ => false) "SELECT * FROM dataset_a".toList 500 := by
  have hrun : executeSql ascii (some oneTable) ⟨4096, 500⟩ oneDataset
      "SELECT * FROM dataset_a ;".toList none =
        .ok (wrapSql "SELECT * FROM dataset_a".toList 500) := by
    decide +kernel
  have hclean : cleanSql "SELECT * FROM dataset_a ;".toList = "SELECT * FROM dataset_a".toList := by
    decide +kernel
  have h := (@limit_holds_iff (fun _ => false) _ _ _ _ _ _ _ hrun).2
  rw [hclean] at h
  exact h.2 (by decide +kernel)

/-- A query that closes the parenthesis of the wrapper, and hides the limit in a comment,
    is run. -/
theorem comment_hides_limit :
    executeSql ascii (some oneTable) ⟨4096, 500⟩ oneDataset
        "SELECT * FROM dataset_a) AS x --".toList none =
      .ok "SELECT * FROM (SELECT * FROM dataset_a) AS x --) AS __ext_q LIMIT 500".toList ∧
    ¬ LimitHolds (fun _ => false) "SELECT * FROM dataset_a) AS x --".toList 500 := by
  refine ⟨by decide +kernel, fun h => ?_⟩
  have hclosed := h.1
  exact absurd hclosed (by decide +kernel)

end Sql

end AimData

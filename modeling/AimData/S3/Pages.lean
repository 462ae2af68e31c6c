/-
  The loop of a scan over the pages of a listing.

  The loop goes on while pages say that they are truncated, and asks for the next page
  with whatever token the last one has.  The broker may leave that out, or hand a token
  out again, and may list an object twice.
-/
import AimData.S3.Scan

namespace AimData

namespace S3

/-! ## The loop -/

/-- A page of the broker's listing. -/
structure Page where
  objects : List Item
  nextContinuationToken : Option String
  isTruncated : Bool

/-- What comes of the requests for a page: how often they are rate limited, and then the
    page, or nothing where the broker fails. -/
structure Reply where
  rateLimited : ℕ
  page : Option Page

def maxRateLimitRetries : ℕ := 5

/-- The loop at the start of a round. -/
structure Round where
  counts : Counts
  rows : Rows
  continuationToken : Option String

inductive Loop where
  | going (round : Round)
  | completed (round : Round)
  | failed

section

-- the answer to the n-th request for a page, which is for a token
variable (contentTypeForKey : String → String) (connectionId scanJobId : String) (rows : Rows)
  (broker : ℕ → Option String → Reply)

/-- A round of the loop. -/
def Round.next (round : Round) (reply : Reply) : Loop :=
  if maxRateLimitRetries < reply.rateLimited then .failed
  else match reply.page with
    | none => .failed
    | some page =>
      let (counts, rows) :=
        scanItems contentTypeForKey connectionId scanJobId (round.counts, round.rows) page.objects
      if page.isTruncated then .going ⟨counts, rows, page.nextContinuationToken⟩
      else .completed ⟨counts, rows, page.nextContinuationToken⟩

/-- `_run_scan_job` after `n` rounds. -/
def runScanJob : ℕ → Loop
  | 0 => .going ⟨⟨0, 0, [], 0⟩, rows, none⟩
  | n + 1 =>
    match runScanJob n with
    | .going round => round.next contentTypeForKey connectionId scanJobId
        (broker n round.continuationToken)
    | stopped => stopped

/-! ## What is listed -/

/-- The pages that follow each other: the token of the n-th request, where there is one. -/
def request : ℕ → Option (Option String)
  | 0 => some none
  | n + 1 => do
    let token ← request n
    let page ← (broker n token).page
    if page.isTruncated then some page.nextContinuationToken else none

/-- The page that the n-th request is answered with. -/
def served (n : ℕ) : Option Page := do
  let token ← request broker n
  (broker n token).page

/-- The objects of the first pages. -/
def listed : ℕ → List Item
  | 0 => []
  | n + 1 => listed n ++ ((served broker n).map Page.objects).getD []

/-- The objects of a listing, one for each key. -/
def distinct (items : List Item) : List Item := items.pwFilter fun a b => a.key ≠ b.key

/-- The counts of a list of objects. -/
structure CountsOf (items : List Item) (counts : Counts) : Prop where
  enumerated : counts.enumerated = items.length
  totalSizeBytes : counts.totalSizeBytes = (items.map Item.size).sum
  typeHistogram : counts.typeHistogram =
    items.foldl (fun histogram item => countType histogram (contentTypeForKey item.key)) []

/-- **A scan of the listing**: no request but the first is for the first page; the counts
    are those of the objects listed so far, each of them once; the loop ends at the last
    page; and it ends if every token stands for one page and there are finitely many. -/
structure EnumeratesOnce : Prop where
  noRestart : ∀ n round, 0 < n →
    runScanJob contentTypeForKey connectionId scanJobId rows broker n = .going round →
    round.continuationToken ≠ none
  once : ∀ n round,
    runScanJob contentTypeForKey connectionId scanJobId rows broker n = .going round ∨
      runScanJob contentTypeForKey connectionId scanJobId rows broker n = .completed round →
    CountsOf contentTypeForKey (distinct (listed broker n)) round.counts
  lastPage : ∀ n round page,
    runScanJob contentTypeForKey connectionId scanJobId rows broker n = .going round →
    (broker n round.continuationToken).page = some page →
    page.isTruncated = false ∨ page.nextContinuationToken = none →
    ∀ next, runScanJob contentTypeForKey connectionId scanJobId rows broker (n + 1) ≠ .going next
  ends : ∀ listing : Option String → Option Page,
    (∀ n token, (broker n token).page = listing token) →
    {token | ∃ n round, runScanJob contentTypeForKey connectionId scanJobId rows broker n =
      .going round ∧ round.continuationToken = token}.Finite →
    ∃ n, ∀ round, runScanJob contentTypeForKey connectionId scanJobId rows broker n ≠ .going round

/-- What a listing has to keep: a truncated page has a token, no object is listed twice,
    and a token that stands for one page is not handed out again. -/
structure Coherent : Prop where
  token : ∀ n page, served broker n = some page → page.isTruncated = true →
    page.nextContinuationToken ≠ none
  keys : ∀ n, ((listed broker n).map Item.key).Nodup
  fresh : ∀ listing : Option String → Option Page,
    (∀ n token, (broker n token).page = listing token) →
    ∀ i j token, i < j → request broker i = some token → request broker j ≠ some token

end

/-! ## One round -/

section

variable {contentTypeForKey : String → String} {connectionId scanJobId : String} {rows : Rows}
  {broker : ℕ → Option String → Reply}

theorem countsOf_scanItems {before items : List Item} {counts counts' : Counts} {rows rows' : Rows}
    (hcounts : CountsOf contentTypeForKey before counts)
    (h : scanItems contentTypeForKey connectionId scanJobId (counts, rows) items =
      (counts', rows')) : CountsOf contentTypeForKey (before ++ items) counts' := by
  induction items generalizing before counts rows with
  | nil =>
    cases h
    rwa [List.append_nil]
  | cons item items ih =>
    rw [List.append_cons]
    refine ih ?_ h
    constructor
    · simp [hcounts.enumerated]
    · simp [hcounts.totalSizeBytes]
    · simp [hcounts.typeHistogram]

/-- What is listed is counted once iff it is listed once. -/
theorem countsOf_distinct_iff {items : List Item} {counts : Counts}
    (hcounts : CountsOf contentTypeForKey items counts) :
    CountsOf contentTypeForKey (distinct items) counts ↔ (items.map Item.key).Nodup := by
  have hself : distinct items = items ↔ (items.map Item.key).Nodup := by
    rw [distinct, List.pwFilter_eq_self, List.Nodup, List.pairwise_map]
  rw [← hself]
  constructor
  · intro h
    exact (List.pwFilter_sublist items).eq_of_length
      (h.enumerated.symm.trans hcounts.enumerated)
  · intro h
    rwa [h]

/-- Where the loop stands after `n` rounds. -/
inductive StandsAt (contentTypeForKey : String → String) (broker : ℕ → Option String → Reply)
    (n : ℕ) : Loop → Prop
  | going {round : Round} : request broker n = some round.continuationToken →
    CountsOf contentTypeForKey (listed broker n) round.counts →
    StandsAt contentTypeForKey broker n (.going round)
  | completed {round : Round} : request broker n = none →
    CountsOf contentTypeForKey (listed broker n) round.counts →
    StandsAt contentTypeForKey broker n (.completed round)
  | failed : request broker n = none →
    (∀ m, n = m + 1 → listed broker n = listed broker m) →
    StandsAt contentTypeForKey broker n .failed

theorem request_succ_none {n : ℕ} (h : request broker n = none) :
    request broker (n + 1) = none := by
  rw [request, h]
  rfl

theorem listed_succ_none {n : ℕ} (h : request broker n = none) :
    listed broker (n + 1) = listed broker n := by
  rw [listed, served, h]
  exact List.append_nil _

theorem runScanJob_standsAt (hlimit : ∀ n token, (broker n token).rateLimited ≤ maxRateLimitRetries)
    (n : ℕ) : StandsAt contentTypeForKey broker n
      (runScanJob contentTypeForKey connectionId scanJobId rows broker n) := by
  induction n with
  | zero => exact .going rfl ⟨rfl, rfl, rfl⟩
  | succ n ih =>
    rw [runScanJob]
    generalize runScanJob contentTypeForKey connectionId scanJobId rows broker n = loop at ih
    cases ih with
    | @going round hrequest hcounts =>
      have hserved : served broker n = (broker n round.continuationToken).page := by
        rw [served, hrequest]
        rfl
      have hnext : request broker (n + 1) = (do
          let page ← (broker n round.continuationToken).page
          if page.isTruncated then some page.nextContinuationToken else none) := by
        rw [request, hrequest]
        rfl
      dsimp only
      rw [Round.next, if_neg (not_lt.2 (hlimit n _))]
      cases hpage : (broker n round.continuationToken).page with
      | none =>
        rw [hpage] at hnext
        refine .failed hnext ?_
        rintro m ⟨⟩
        rw [listed, hserved, hpage]
        exact List.append_nil _
      | some page =>
        rcases hscan : scanItems contentTypeForKey connectionId scanJobId
          (round.counts, round.rows) page.objects with ⟨counts, rows⟩
        have hlisted : CountsOf contentTypeForKey (listed broker (n + 1)) counts := by
          rw [listed, hserved, hpage]
          exact countsOf_scanItems hcounts hscan
        rw [hpage] at hnext
        dsimp only
        rw [hscan]
        cases htruncated : page.isTruncated with
        | true =>
          refine .going ?_ hlisted
          simpa [htruncated] using hnext
        | false =>
          refine .completed ?_ hlisted
          simpa [htruncated] using hnext
    | completed hrequest hcounts =>
      refine .completed (request_succ_none hrequest) ?_
      rwa [listed_succ_none hrequest]
    | failed hrequest =>
      refine .failed (request_succ_none hrequest) ?_
      rintro m ⟨⟩
      exact listed_succ_none hrequest

theorem going_iff (hlimit : ∀ n token, (broker n token).rateLimited ≤ maxRateLimitRetries)
    {n : ℕ} {token : Option String} : request broker n = some token ↔
      ∃ round, runScanJob contentTypeForKey connectionId scanJobId rows broker n = .going round ∧
        round.continuationToken = token := by
  have hstands : StandsAt contentTypeForKey broker n
      (runScanJob contentTypeForKey connectionId scanJobId rows broker n) :=
    runScanJob_standsAt hlimit n
  generalize runScanJob contentTypeForKey connectionId scanJobId rows broker n = loop at hstands
  cases hstands with
  | going hrequest hcounts => simp [hrequest]
  | completed hrequest hcounts => simp [hrequest]
  | failed hrequest hlisted => simp [hrequest]

/-! ## All rounds -/

/-- What is counted once after every round is listed once. -/
theorem keys_of_once (hlimit : ∀ n token, (broker n token).rateLimited ≤ maxRateLimitRetries)
    (h : ∀ n round,
      runScanJob contentTypeForKey connectionId scanJobId rows broker n = .going round ∨
        runScanJob contentTypeForKey connectionId scanJobId rows broker n = .completed round →
      CountsOf contentTypeForKey (distinct (listed broker n)) round.counts) (n : ℕ) :
    ((listed broker n).map Item.key).Nodup := by
  induction n with
  | zero => exact List.nodup_nil
  | succ n ih =>
    have hstands : StandsAt contentTypeForKey broker (n + 1)
        (runScanJob contentTypeForKey connectionId scanJobId rows broker (n + 1)) :=
      runScanJob_standsAt hlimit (n + 1)
    have honce := h (n + 1)
    generalize runScanJob contentTypeForKey connectionId scanJobId rows broker (n + 1) = loop
      at hstands honce
    cases hstands with
    | going hrequest hcounts => exact (countsOf_distinct_iff hcounts).1 (honce _ (Or.inl rfl))
    | completed hrequest hcounts => exact (countsOf_distinct_iff hcounts).1 (honce _ (Or.inr rfl))
    | failed hrequest hlisted =>
      rw [hlisted n rfl]
      exact ih

theorem once_of_keys (hlimit : ∀ n token, (broker n token).rateLimited ≤ maxRateLimitRetries)
    (h : ∀ n, ((listed broker n).map Item.key).Nodup) (n : ℕ) (round : Round)
    (hround : runScanJob contentTypeForKey connectionId scanJobId rows broker n = .going round ∨
      runScanJob contentTypeForKey connectionId scanJobId rows broker n = .completed round) :
    CountsOf contentTypeForKey (distinct (listed broker n)) round.counts := by
  have hstands : StandsAt contentTypeForKey broker n
      (runScanJob contentTypeForKey connectionId scanJobId rows broker n) :=
    runScanJob_standsAt hlimit n
  rcases hround with hround | hround
  · rw [hround] at hstands
    cases hstands with
    | going hrequest hcounts => exact (countsOf_distinct_iff hcounts).2 (h n)
  · rw [hround] at hstands
    cases hstands with
    | completed hrequest hcounts => exact (countsOf_distinct_iff hcounts).2 (h n)

/-- A request with a token comes from a truncated page that has it. -/
theorem request_succ {n : ℕ} {token : Option String} : request broker (n + 1) = some token ↔
    ∃ page, served broker n = some page ∧ page.isTruncated = true ∧
      page.nextContinuationToken = token := by
  rw [request, served]
  cases request broker n with
  | none => simp
  | some before =>
    cases hpage : (broker n before).page with
    | none => simp [hpage]
    | some page => simp [hpage]

/-! ### Listings in which a token stands for one page -/

section

variable {listing : Option String → Option Page}

/-- The request after a request. -/
def following (listing : Option String → Option Page) (o : Option (Option String)) :
    Option (Option String) := do
  let token ← o
  let page ← listing token
  if page.isTruncated then some page.nextContinuationToken else none

theorem request_add (h : ∀ n token, (broker n token).page = listing token) (n k : ℕ) :
    request broker (n + k) = (following listing)^[k] (request broker n) := by
  induction k with
  | zero => rfl
  | succ k ih =>
    rw [← Nat.add_assoc, Function.iterate_succ_apply', ← ih, request]
    simp only [h]
    rfl

/-- A token handed out again makes the requests go round. -/
theorem request_cycle (h : ∀ n token, (broker n token).page = listing token) {i j : ℕ}
    {token : Option String} (hij : i < j) (hi : request broker i = some token)
    (hj : request broker j = some token) (n : ℕ) :
    ∃ m < j, ∃ token, request broker m = some token ∧ request broker n = some token := by
  induction n using Nat.strongRecOn with
  | ind n ih =>
    by_cases hn : n < j
    · have hsome : request broker n ≠ none := by
        intro hnone
        have hlater : ∀ k, request broker (n + k) = none := by
          intro k
          induction k with
          | zero => exact hnone
          | succ k ihk => exact request_succ_none ihk
        have hjnone : request broker j = none := by
          rw [← Nat.add_sub_cancel' hn.le]
          exact hlater (j - n)
        rw [hj] at hjnone
        cases hjnone
      obtain ⟨t, ht⟩ := Option.ne_none_iff_exists'.1 hsome
      exact ⟨n, hn, t, ht, ht⟩
    · -- as many rounds after the first request with the token as after the second
      have hback : request broker n = request broker (i + (n - j)) := by
        rw [request_add h i, hi, ← hj, ← request_add h j, Nat.add_sub_cancel' (not_lt.1 hn)]
      rw [hback]
      exact ih (i + (n - j)) (by omega)

end

/-- **The scan enumerates a listing once** iff the listing is coherent. -/
theorem enumeratesOnce_iff
    (hlimit : ∀ n token, (broker n token).rateLimited ≤ maxRateLimitRetries) :
    EnumeratesOnce contentTypeForKey connectionId scanJobId rows broker ↔ Coherent broker := by
  have hgoing := fun n token => @going_iff contentTypeForKey connectionId scanJobId rows broker
    hlimit n token
  constructor
  · intro h
    refine ⟨?_, keys_of_once hlimit h.once, ?_⟩
    · intro n page hserved htruncated hnone
      obtain ⟨round, hround, htoken⟩ := (hgoing (n + 1) none).1
        (request_succ.2 ⟨page, hserved, htruncated, hnone⟩)
      exact h.noRestart (n + 1) round n.succ_pos hround htoken
    · intro listing hlisting i j token hij hi hj
      have hcycle := request_cycle hlisting hij hi hj
      obtain ⟨n, hn⟩ := h.ends listing hlisting (by
        refine ((Set.finite_lt_nat j).image fun m => (request broker m).getD none).subset ?_
        rintro t ⟨n, round, hround, rfl⟩
        obtain ⟨m, hm, t, hmt, hnt⟩ := hcycle n
        have ht : request broker n = some round.continuationToken :=
          (hgoing n _).2 ⟨round, hround, rfl⟩
        refine ⟨m, hm, ?_⟩
        rw [hnt] at ht
        simp [hmt, Option.some.inj ht])
      obtain ⟨m, -, t, -, hnt⟩ := hcycle n
      obtain ⟨round, hround, -⟩ := (hgoing n t).1 hnt
      exact hn round hround
  · intro h
    have hrestart : ∀ n, request broker (n + 1) ≠ some none := by
      intro n hrequest
      obtain ⟨page, hserved, htruncated, hnone⟩ := request_succ.1 hrequest
      exact h.token n page hserved htruncated hnone
    refine ⟨?_, once_of_keys hlimit h.keys, ?_, ?_⟩
    · intro n round hn hround htoken
      obtain ⟨m, rfl⟩ := Nat.exists_eq_succ_of_ne_zero hn.ne'
      exact hrestart m ((hgoing (m + 1) none).2 ⟨round, hround, htoken⟩)
    · intro n round page hround hpage hlast next hnext
      have hrequest : request broker (n + 1) = some next.continuationToken :=
        (hgoing (n + 1) _).2 ⟨next, hnext, rfl⟩
      obtain ⟨page', hserved, htruncated, htoken⟩ := request_succ.1 hrequest
      have hserved' : served broker n = some page := by
        rw [served, (hgoing n _).2 ⟨round, hround, rfl⟩]
        exact hpage
      rw [hserved'] at hserved
      cases hserved
      rcases hlast with hlast | hlast
      · rw [hlast] at htruncated
        cases htruncated
      · exact h.token n page hserved' htruncated hlast
    · intro listing hlisting hfinite
      by_contra hnever
      push Not at hnever
      choose round hround using hnever
      have hrequest : ∀ n, request broker n = some (round n).continuationToken :=
        fun n => (hgoing n _).2 ⟨round n, hround n, rfl⟩
      have hinj : Function.Injective fun n => (round n).continuationToken := by
        intro i j hij
        dsimp only at hij
        rcases lt_trichotomy i j with hlt | heq | hgt
        · exact absurd (hij ▸ hrequest j) (h.fresh listing hlisting i j _ hlt (hrequest i))
        · exact heq
        · exact absurd (hij ▸ hrequest i) (h.fresh listing hlisting j i _ hgt (hrequest j))
      refine Set.infinite_range_of_injective hinj (hfinite.subset ?_)
      rintro t ⟨n, rfl⟩
      exact ⟨n, round n, hround n, rfl⟩

end

/-! ### A truncated page without a token -/

def oneObject : Item := ⟨"a.csv", 1, "", ""⟩

/-- The one page of a bucket with one object. -/
def onePage : Page := ⟨[oneObject], none, false⟩

theorem enumeratesOnce_iff_one :
    (∀ n token, ((fun _ _ => ⟨0, some onePage⟩ : ℕ → Option String → Reply) n token).rateLimited ≤
      maxRateLimitRetries) ∧
    (EnumeratesOnce binaryType "c" "s" ⟨[], []⟩ (fun _ _ => ⟨0, some onePage⟩) ↔
      Coherent fun _ _ => ⟨0, some onePage⟩) :=
  ⟨fun _ _ => Nat.zero_le _, enumeratesOnce_iff fun _ _ => Nat.zero_le _⟩

/-- The broker says that its only page is truncated, and gives no token: the scan starts
    over, and counts the object again. -/
theorem listing_starts_over : ∃ contentTypeForKey connectionId scanJobId rows broker,
    (∀ n token, (broker n token).rateLimited ≤ maxRateLimitRetries) ∧
      ¬ EnumeratesOnce contentTypeForKey connectionId scanJobId rows broker := by
  refine ⟨binaryType, "c", "s", ⟨[], []⟩,
    fun _ _ => ⟨0, some { onePage with isTruncated := true }⟩, fun _ _ => Nat.zero_le _, ?_⟩
  intro h
  exact h.noRestart 1 _ Nat.one_pos rfl rfl

end S3

end AimData

/-
  The redaction of configurations and log entries for a diagnostic bundle.

  A configuration's strings are redacted by the nearest key above them; a log entry's by the key
  whose value they are, and else by the patterns of JWTs, e-mail addresses and URL queries,
  except in a list in a list.  What either recursion does at a position is settled by the path to
  it (`at?_redactDict`, `at?_redactLog`), and with it when it covers every string below a
  sensitive key, and every JWT and e-mail address elsewhere (`redaction_iff`).
-/
import AimData.Lib.PyText
import AimData.Lib.Regex

namespace AimData

namespace Redaction

open Regex (Re Fence)

abbrev Text := List Char

/-- A configuration or log entry. -/
inductive Entry (α : Type) where
  | scalar (a : α)
  | str (s : Text)
  | list (items : List (Entry α))
  | dict (fields : List (Text × Entry α))

/-! ## Keys and patterns -/

/-- `str.lower`, as far as its result is ASCII. -/
def lower (s : Text) : Text := s.flatMap fun c =>
  if c = '\u0130' then ['i', '\u0307'] else if c = '\u212a' then ['k'] else [c.toLower]

def sensitiveKeySubstrings : List Text :=
  ["password", "passwd", "secret", "token", "apikey", "api_key", "authorization", "bearer",
    "cookie", "session", "private", "ssh", "cert", "key", "salt", "credential"].map String.toList

/-- `_is_sensitive_key` -/
def isSensitiveKey (key : Text) : Bool :=
  sensitiveKeySubstrings.any fun s => decide (s <:+: lower key)

/-- `_redact_sensitive_value` -/
def redactSensitiveValue (value : Text) : Text :=
  if value.length ≤ 8 then "[REDACTED]".toList
  else value.take 4 ++ "****".toList ++ value.drop (value.length - 4)

def letterOrDigit (c : Char) : Bool := c.isAlpha || c.isDigit

/-- `[A-Za-z0-9_-]` -/
def base64url (c : Char) : Bool := letterOrDigit c || c = '_' || c = '-'

/-- `eyJ[A-Za-z0-9_-]+\.[A-Za-z0-9_-]+\.[A-Za-z0-9_-]+` -/
def jwtPattern : Re :=
  .seq (.lit ['e', 'y', 'J']) (.seq (.many base64url 1) (.seq (.cls (· = '.'))
    (.seq (.many base64url 1) (.seq (.cls (· = '.')) (.many base64url 1)))))

/-- `[a-zA-Z0-9_.+-]+@[a-zA-Z0-9-]+\.[a-zA-Z0-9-.]+` -/
def emailPattern : Re :=
  .seq (.many (fun c => letterOrDigit c || c = '_' || c = '.' || c = '+' || c = '-') 1)
    (.seq (.cls (· = '@')) (.seq (.many (fun c => letterOrDigit c || c = '-') 1)
      (.seq (.cls (· = '.')) (.many (fun c => letterOrDigit c || c = '-' || c = '.') 1))))

/-- `(https?://[^\s?]+)\?[^\s]*` -/
def urlQueryPattern : Re :=
  .seq (.group (.seq (.lit ['h', 't', 't', 'p']) (.seq (.opt (.cls (· = 's')))
      (.seq (.lit [':', '/', '/']) (.many (fun c => !PyText.isSpace c && c ≠ '?') 1)))))
    (.seq (.cls (· = '?')) (.many (fun c => !PyText.isSpace c) 0))

/-- `_redact_string_values` -/
def redactStringValues (value : Text) : Text :=
  let value := Regex.sub jwtPattern (fun _ => "[REDACTED_JWT]".toList) value
  let value := Regex.sub emailPattern (fun _ => "[REDACTED_EMAIL]".toList) value
  Regex.sub urlQueryPattern (fun m => m.group.getD [] ++ "?[QUERY_REDACTED]".toList) value

/-! ## The two recursions -/

variable {α : Type}

mutual
/-- `_redact_dict` -/
def redactDict (parentKey : Text) : Entry α → Entry α
  | .dict fields => .dict (redactFields fields)
  | .list items => .list (redactItems parentKey items)
  | .str s => .str (if isSensitiveKey parentKey then redactSensitiveValue s else s)
  | .scalar a => .scalar a

def redactFields : List (Text × Entry α) → List (Text × Entry α)
  | [] => []
  | (k, v) :: fields => (k, redactDict k v) :: redactFields fields

def redactItems (parentKey : Text) : List (Entry α) → List (Entry α)
  | [] => []
  | item :: items => redactDict parentKey item :: redactItems parentKey items
end

/-- `redact_config` -/
def redactConfig (config : Entry α) : Entry α := redactDict [] config

mutual
/-- `redact_log_entry`, of the items of a dictionary -/
def redactLogEntry : List (Text × Entry α) → List (Text × Entry α)
  | [] => []
  | (k, v) :: entry => (k, redactLogValue k v) :: redactLogEntry entry

/-- The value of a key in a log entry. -/
def redactLogValue (k : Text) : Entry α → Entry α
  | .dict fields => .dict (redactLogEntry fields)
  | .str s => .str (if isSensitiveKey k then redactSensitiveValue s else redactStringValues s)
  | .list items => .list (redactLogItems items)
  | .scalar a => .scalar a

def redactLogItems : List (Entry α) → List (Entry α)
  | [] => []
  | item :: items => redactLogItem item :: redactLogItems items

/-- An item of a list that is a key's value; a list in it is left as it is. -/
def redactLogItem : Entry α → Entry α
  | .dict fields => .dict (redactLogEntry fields)
  | .str s => .str (redactStringValues s)
  | .list items => .list items
  | .scalar a => .scalar a
end

/-! ## Positions -/

inductive Step where
  | key (k : Text)
  | index (i : ℕ)
  deriving DecidableEq

/-- The entry at a path. -/
def Entry.at? : Entry α → List Step → Option (Entry α)
  | e, [] => some e
  | .dict fields, .key k :: path => (fields.lookup k).bind (at? · path)
  | .list items, .index i :: path => items[i]?.bind (at? · path)
  | _, _ :: _ => none

/-- The path passes a key with a sensitive name. -/
def Below (path : List Step) : Prop := ∃ k, .key k ∈ path ∧ isSensitiveKey k = true

/-- A key of some dictionary in the entry. -/
def Entry.HasKey (e : Entry α) (k : Text) : Prop :=
  ∃ path fields, e.at? path = some (.dict fields) ∧ k ∈ fields.map Prod.fst

theorem redactFields_eq (fields : List (Text × Entry α)) :
    redactFields fields = fields.map fun p => (p.1, redactDict p.1 p.2) := by
  induction fields with
  | nil => rfl
  | cons p fields ih => rw [redactFields, ih]; rfl

theorem redactItems_eq (parentKey : Text) (items : List (Entry α)) :
    redactItems parentKey items = items.map (redactDict parentKey) := by
  induction items with
  | nil => rfl
  | cons item items ih => rw [redactItems, ih]; rfl

theorem redactLogEntry_eq (entry : List (Text × Entry α)) :
    redactLogEntry entry = entry.map fun p => (p.1, redactLogValue p.1 p.2) := by
  induction entry with
  | nil => rfl
  | cons p entry ih => rw [redactLogEntry, ih]; rfl

theorem redactLogItems_eq (items : List (Entry α)) :
    redactLogItems items = items.map redactLogItem := by
  induction items with
  | nil => rfl
  | cons item items ih => rw [redactLogItems, ih]; rfl

/-- Looking up a key after its values are changed under their keys. -/
theorem lookup_mapValues {β : Type} (g : Text → β → β) (fields : List (Text × β)) (k : Text) :
    (fields.map fun p => (p.1, g p.1 p.2)).lookup k = (fields.lookup k).map (g k) := by
  induction fields with
  | nil => rfl
  | cons p fields ih =>
    obtain ⟨k', v⟩ := p
    simp only [List.map_cons, List.lookup_cons]
    by_cases h : k = k'
    · subst h
      simp
    · rw [beq_false_of_ne h]
      exact ih

/-- The nearest key above the end of a path, through lists. -/
def governing : Text → List Step → Text
  | parentKey, [] => parentKey
  | _, .key k :: path => governing k path
  | parentKey, .index _ :: path => governing parentKey path

/-- **A configuration is redacted by the nearest key.** -/
theorem at?_redactDict (path : List Step) : ∀ (parentKey : Text) (e : Entry α),
    (redactDict parentKey e).at? path = (e.at? path).map (redactDict (governing parentKey path)) := by
  induction path with
  | nil => exact fun _ _ => rfl
  | cons step path ih =>
    intro parentKey e
    cases e with
    | scalar a => cases step <;> rfl
    | str s => cases step <;> rfl
    | list items =>
      cases step with
      | key k => rfl
      | index i =>
        simp only [redactDict, Entry.at?, redactItems_eq, List.getElem?_map, governing]
        cases items[i]? with
        | none => rfl
        | some item => exact ih parentKey item
    | dict fields =>
      cases step with
      | index i => rfl
      | key k =>
        simp only [redactDict, Entry.at?, redactFields_eq, lookup_mapValues, governing]
        cases fields.lookup k with
        | none => rfl
        | some v => exact ih k v

/-- Where a log entry's recursion stands: at the value of a key, at an item of a list, or past a
    list in a list. -/
inductive Context where
  | value (k : Text)
  | item
  | untouched
  deriving DecidableEq

def Context.next : Context → Step → Context
  | .untouched, _ => .untouched
  | _, .key k => .value k
  | .value _, .index _ => .item
  | .item, .index _ => .untouched

/-- What the recursion does there. -/
def Context.redact : Context → Entry α → Entry α
  | .value k => redactLogValue k
  | .item => redactLogItem
  | .untouched => id

def contextOf (path : List Step) : Context := path.foldl Context.next .item

/-- **A log entry is redacted by the context of a path.** -/
theorem at?_redactLog (path : List Step) : ∀ (context : Context) (e : Entry α),
    (context.redact e).at? path = (e.at? path).map (path.foldl Context.next context).redact := by
  induction path with
  | nil => exact fun _ _ => rfl
  | cons step path ih =>
    intro context e
    rw [List.foldl_cons]
    cases context with
    | untouched =>
      have h := ih .untouched
      simp only [Context.redact, Context.next, id] at h ⊢
      cases step with
      | key k =>
        cases e with
        | dict fields =>
          simp only [Entry.at?]
          cases fields.lookup k with
          | none => rfl
          | some v => exact h v
        | _ => rfl
      | index i =>
        cases e with
        | list items =>
          simp only [Entry.at?]
          cases items[i]? with
          | none => rfl
          | some v => exact h v
        | _ => rfl
    | value k' =>
      cases e with
      | scalar a => cases step <;> rfl
      | str s => cases step <;> rfl
      | list items =>
        cases step with
        | key k => rfl
        | index i =>
          simp only [Context.redact, redactLogValue, Entry.at?, redactLogItems_eq,
            List.getElem?_map, Context.next]
          cases items[i]? with
          | none => rfl
          | some item => exact ih .item item
      | dict fields =>
        cases step with
        | index i => rfl
        | key k =>
          simp only [Context.redact, redactLogValue, Entry.at?, redactLogEntry_eq,
            lookup_mapValues, Context.next]
          cases fields.lookup k with
          | none => rfl
          | some v => exact ih (.value k) v
    | item =>
      cases e with
      | scalar a => cases step <;> rfl
      | str s => cases step <;> rfl
      | list items =>
        cases step with
        | key k => rfl
        | index i =>
          simp only [Context.redact, redactLogItem, Entry.at?, Context.next]
          cases items[i]? with
          | none => rfl
          | some item => exact ih .untouched item
      | dict fields =>
        cases step with
        | index i => rfl
        | key k =>
          simp only [Context.redact, redactLogItem, Entry.at?, redactLogEntry_eq,
            lookup_mapValues, Context.next]
          cases fields.lookup k with
          | none => rfl
          | some v => exact ih (.value k) v

/-! ## Redacted strings -/

/-- A JWT or an e-mail address. -/
def Secret (w : Text) : Prop := jwtPattern.Lang w ∨ emailPattern.Lang w

theorem dot_mem_jwt {w : Text} (h : jwtPattern.Lang w) : '.' ∈ w := by
  obtain ⟨_, _, rfl, -, _, _, rfl, -, _, _, rfl, ⟨c, hc, rfl⟩, -⟩ := h
  simp only [decide_eq_true_eq] at hc
  simp [hc]

theorem at_mem_email {w : Text} (h : emailPattern.Lang w) : '@' ∈ w := by
  obtain ⟨_, _, rfl, -, _, _, rfl, ⟨c, hc, rfl⟩, -⟩ := h
  simp only [decide_eq_true_eq] at hc
  simp [hc]

/-- A character of a secret that no tag has. -/
theorem Secret.mark {w : Text} (h : Secret w) : '.' ∈ w ∨ '@' ∈ w :=
  h.imp dot_mem_jwt at_mem_email

theorem Secret.notMem {w : Text} (h : Secret w) {c : Char}
    (hj : jwtPattern.allows c = false) (he : emailPattern.allows c = false) : c ∉ w :=
  h.elim (fun h => Re.notMem_of_lang h hj) fun h => Re.notMem_of_lang h he

/-- A tag between characters that no secret has, and without a mark, is a fence. -/
theorem Secret.fence {w : Text} (h : Secret w) (inner : Text) {x y : Char} (hx : x ∉ w) (hy : y ∉ w)
    (hdot : '.' ∉ inner) (hat : '@' ∉ inner) : Fence w (x :: (inner ++ [y])) := by
  refine ⟨x, inner, y, rfl, hx, hy, fun hocc => ?_⟩
  rcases h.mark with hm | hm
  · exact hdot (hocc.subset hm)
  · exact hat (hocc.subset hm)

theorem Secret.fence_jwt {w : Text} (h : Secret w) : Fence w "[REDACTED_JWT]".toList :=
  h.fence "REDACTED_JWT".toList (h.notMem (by decide) (by decide))
    (h.notMem (by decide) (by decide)) (by decide) (by decide)

theorem Secret.fence_email {w : Text} (h : Secret w) : Fence w "[REDACTED_EMAIL]".toList :=
  h.fence "REDACTED_EMAIL".toList (h.notMem (by decide) (by decide))
    (h.notMem (by decide) (by decide)) (by decide) (by decide)

theorem Secret.fence_query {w : Text} (h : Secret w) : Fence w "?[QUERY_REDACTED]".toList :=
  h.fence "[QUERY_REDACTED".toList (h.notMem (by decide) (by decide))
    (h.notMem (by decide) (by decide)) (by decide) (by decide)

/-- **No JWT and no e-mail address is left** in a string that is redacted by its value. -/
theorem redactStringValues_clean (s : Text) {w : Text} (h : Secret w) :
    ¬ w <:+: redactStringValues s := by
  have hbracket : '[' ∉ w := h.notMem (by decide) (by decide)
  have hmark : '?' ∉ w := h.notMem (by decide) (by decide)
  intro hocc
  have hquery := Regex.infix_of_sub hmark (fun m _ hm => by
    obtain ⟨g, hg, hpre⟩ := Re.group_prefix rfl (List.mem_of_mem_head? hm)
    exact ⟨g, "?[QUERY_REDACTED]".toList, by rw [hg]; rfl, hpre, ⟨_, rfl⟩, h.fence_query⟩) _ hocc
  rcases h with hjwt | hemail
  · have hemail := Regex.infix_of_sub hbracket (fun m _ _ => ⟨[], "[REDACTED_EMAIL]".toList, rfl,
      List.nil_prefix, ⟨_, rfl⟩, Secret.fence_email (.inl hjwt)⟩) _ hquery
    refine Regex.not_lang_of_sub (fun hnil => ?_) hjwt (Secret.fence_jwt (.inl hjwt)) s hemail
    cases dot_mem_jwt hnil
  · refine Regex.not_lang_of_sub (fun hnil => ?_) hemail (Secret.fence_email (.inr hemail)) _ hquery
    cases at_mem_email hnil

/-! ## What is covered -/

/-- Every string below a sensitive key is replaced by its redacted form. -/
def ConfigRedacted (config : Entry α) : Prop :=
  ∀ path s, config.at? path = some (.str s) → Below path →
    (redactConfig config).at? path = some (.str (redactSensitiveValue s))

/-- A string of the entry, a key included. -/
def Entry.IsString (e : Entry α) (s : Text) : Prop := (∃ path, e.at? path = some (.str s)) ∨ e.HasKey s

/-- A string of the entry that is not the value at a path below a sensitive key. -/
def Entry.OtherString (e : Entry α) (s : Text) : Prop :=
  (∃ path, e.at? path = some (.str s) ∧ ¬ Below path) ∨ e.HasKey s

/-- Every string below a sensitive key is replaced by its redacted form, and no other string of the
    output has a JWT or an e-mail address of the input. -/
structure LogRedacted (entry : List (Text × Entry α)) : Prop where
  below : ∀ path s, (Entry.dict entry).at? path = some (.str s) → Below path →
    (Entry.dict (redactLogEntry entry)).at? path = some (.str (redactSensitiveValue s))
  elsewhere : ∀ t, (Entry.dict (redactLogEntry entry)).OtherString t →
    ∀ u, (Entry.dict entry).IsString u → ∀ w, Secret w → w <:+: u → ¬ w <:+: t

/-- The nearest key above a string below a sensitive key is sensitive too. -/
def ConfigCovered (config : Entry α) : Prop :=
  ∀ path s, config.at? path = some (.str s) → Below path →
    isSensitiveKey (governing [] path) = true ∨ s = redactSensitiveValue s

/-- What becomes of a string in a context. -/
def Context.text : Context → Text → Text
  | .value k, s => if isSensitiveKey k then redactSensitiveValue s else redactStringValues s
  | .item, s => redactStringValues s
  | .untouched, s => s

/-- The context redacts the string: it is the value of a sensitive key, or its own redacted form, by
    its patterns or as it is. -/
def Context.Covers : Context → Text → Prop
  | .value k, s => isSensitiveKey k = true ∨ redactStringValues s = redactSensitiveValue s
  | .item, s => redactStringValues s = redactSensitiveValue s
  | .untouched, s => s = redactSensitiveValue s

/-- Strings below a sensitive key are covered by their contexts, and there is no secret in a key or
    in a string past a list in a list. -/
structure LogCovered (entry : List (Text × Entry α)) : Prop where
  below : ∀ path s, (Entry.dict entry).at? path = some (.str s) → Below path →
    (contextOf path).Covers s
  untouched : ∀ path s, (Entry.dict entry).at? path = some (.str s) → ¬ Below path →
    contextOf path = .untouched → ∀ w, Secret w → ¬ w <:+: s
  keys : ∀ k, (Entry.dict entry).HasKey k → ∀ w, Secret w → ¬ w <:+: k

theorem Context.text_eq_iff {context : Context} {s : Text} :
    context.text s = redactSensitiveValue s ↔ context.Covers s := by
  cases context with
  | value k =>
    simp only [Context.text, Context.Covers]
    split_ifs with h
    · simp [h]
    · simp [h]
  | item => rfl
  | untouched => rfl

theorem Context.redact_str (context : Context) (s : Text) :
    context.redact (.str s : Entry α) = .str (context.text s) := by
  cases context <;> rfl

/-- A string of the output is the redaction of a string. -/
theorem Context.redact_eq_str {context : Context} {e : Entry α} {t : Text}
    (h : context.redact e = .str t) : ∃ s, e = .str s ∧ t = context.text s := by
  cases e with
  | str s =>
    rw [redact_str] at h
    exact ⟨s, rfl, (Entry.str.inj h).symm⟩
  | scalar a => cases context <;> cases h
  | list items => cases context <;> cases h
  | dict fields => cases context <;> cases h

/-- A dictionary keeps its keys. -/
theorem Context.redact_dict (context : Context) (fields : List (Text × Entry α)) :
    ∃ fields', context.redact (.dict fields) = .dict fields' ∧
      fields'.map Prod.fst = fields.map Prod.fst := by
  have hkeys : (redactLogEntry fields).map Prod.fst = fields.map Prod.fst := by
    rw [redactLogEntry_eq, List.map_map]
    rfl
  cases context with
  | value k => exact ⟨_, rfl, hkeys⟩
  | item => exact ⟨_, rfl, hkeys⟩
  | untouched => exact ⟨fields, rfl, rfl⟩

theorem Context.redact_eq_dict {context : Context} {e : Entry α} {fields' : List (Text × Entry α)}
    (h : context.redact e = .dict fields') :
    ∃ fields, e = .dict fields ∧ fields'.map Prod.fst = fields.map Prod.fst := by
  cases e with
  | dict fields =>
    obtain ⟨fields'', hred, hkeys⟩ := context.redact_dict fields
    rw [hred] at h
    obtain rfl := Entry.dict.inj h
    exact ⟨fields, rfl, hkeys⟩
  | str s => cases context <;> cases h
  | scalar a => cases context <;> cases h
  | list items => cases context <;> cases h

/-- The key of a context is a key of the path. -/
theorem mem_of_context {k : Text} (path : List Step) : ∀ {context : Context},
    path.foldl Context.next context = .value k → .key k ∈ path ∨ context = .value k := by
  induction path with
  | nil => exact fun h => .inr h
  | cons step path ih =>
    intro context h
    rcases ih h with hmem | hnext
    · exact .inl (List.mem_cons_of_mem _ hmem)
    · left
      cases context <;> cases step <;> simp_all [Context.next]

theorem at?_redactLogEntry (entry : List (Text × Entry α)) (path : List Step) :
    (Entry.dict (redactLogEntry entry)).at? path =
      ((Entry.dict entry).at? path).map (contextOf path).redact :=
  at?_redactLog path .item (.dict entry)

/-- The keys of the output are those of the input. -/
theorem hasKey_redactLogEntry {entry : List (Text × Entry α)} {k : Text} :
    (Entry.dict (redactLogEntry entry)).HasKey k ↔ (Entry.dict entry).HasKey k := by
  constructor
  · rintro ⟨path, fields', hat, hk⟩
    rw [at?_redactLogEntry] at hat
    obtain ⟨e, he, hred⟩ := Option.map_eq_some_iff.1 hat
    obtain ⟨fields, rfl, hkeys⟩ := Context.redact_eq_dict hred
    exact ⟨path, fields, he, hkeys ▸ hk⟩
  · rintro ⟨path, fields, hat, hk⟩
    obtain ⟨fields', hred, hkeys⟩ := (contextOf path).redact_dict fields
    refine ⟨path, fields', ?_, hkeys ▸ hk⟩
    rw [at?_redactLogEntry, hat, Option.map_some, hred]

theorem configRedacted_iff (config : Entry α) : ConfigRedacted config ↔ ConfigCovered config := by
  have hstr : ∀ path s, config.at? path = some (.str s) →
      ((redactConfig config).at? path = some (.str (redactSensitiveValue s)) ↔
        isSensitiveKey (governing [] path) = true ∨ s = redactSensitiveValue s) := by
    intro path s hat
    rw [redactConfig, at?_redactDict, hat, Option.map_some, redactDict]
    simp only [Option.some.injEq, Entry.str.injEq]
    split_ifs with h
    · simp [h]
    · simp [h]
  constructor
  · exact fun h path s hat hbelow => (hstr path s hat).1 (h path s hat hbelow)
  · exact fun h path s hat hbelow => (hstr path s hat).2 (h path s hat hbelow)

theorem logRedacted_of_covered {entry : List (Text × Entry α)} (h : LogCovered entry) :
    LogRedacted entry := by
  constructor
  · intro path s hat hbelow
    rw [at?_redactLogEntry, hat, Option.map_some, Context.redact_str,
      Context.text_eq_iff.2 (h.below path s hat hbelow)]
  · rintro t (⟨path, hat, hbelow⟩ | hkey) u - w hw -
    · rw [at?_redactLogEntry] at hat
      obtain ⟨e, he, hred⟩ := Option.map_eq_some_iff.1 hat
      obtain ⟨s, rfl, rfl⟩ := Context.redact_eq_str hred
      cases hcontext : contextOf path with
      | untouched => exact h.untouched path s he hbelow hcontext w hw
      | item => exact redactStringValues_clean s hw
      | value k =>
        have hmem : Step.key k ∈ path := by
          rcases mem_of_context path hcontext with hmem | habs
          · exact hmem
          · cases habs
        have hk : ¬ isSensitiveKey k = true := fun hk => hbelow ⟨k, hmem, hk⟩
        rw [Context.text, if_neg hk]
        exact redactStringValues_clean s hw
    · exact h.keys t (hasKey_redactLogEntry.1 hkey) w hw

theorem covered_of_logRedacted {entry : List (Text × Entry α)} (h : LogRedacted entry) :
    LogCovered entry := by
  constructor
  · intro path s hat hbelow
    have hred := h.below path s hat hbelow
    rw [at?_redactLogEntry, hat, Option.map_some, Context.redact_str] at hred
    exact Context.text_eq_iff.1 (Entry.str.inj (Option.some.inj hred))
  · intro path s hat hbelow hcontext w hw hocc
    refine h.elsewhere s (.inl ⟨path, ?_, hbelow⟩) s (.inl ⟨path, hat⟩) w hw hocc hocc
    rw [at?_redactLogEntry, hat, Option.map_some, hcontext]
    rfl
  · intro k hk w hw hocc
    exact h.elsewhere k (.inr (hasKey_redactLogEntry.2 hk)) k (.inr hk) w hw hocc hocc

/-- **The redactions cover a configuration and a log entry exactly when** the nearest keys of a
    configuration's strings, and the contexts of a log entry's, do. -/
theorem redaction_iff (config : Entry α) (entry : List (Text × Entry α)) :
    (ConfigRedacted config ↔ ConfigCovered config) ∧ (LogRedacted entry ↔ LogCovered entry) :=
  ⟨configRedacted_iff config, covered_of_logRedacted, logRedacted_of_covered⟩

/-- The credentials of a nested dictionary keep their password's neighbour, and a token in a list of
    a log entry stays as it is. -/
theorem nested_not_redacted :
    ¬ ConfigRedacted (.dict [("credentials".toList,
      .dict [("user".toList, .str "alice-in-prod".toList)])] : Entry Unit) ∧
    ¬ LogRedacted ([("tokens".toList, .list [.str "tok-12345".toList])] :
      List (Text × Entry Unit)) := by
  constructor
  · intro h
    have hpath := h [.key "credentials".toList, .key "user".toList] "alice-in-prod".toList (by rfl)
      ⟨"credentials".toList, by simp, by decide⟩
    exact absurd (Entry.str.inj (Option.some.inj hpath)) (by decide)
  · intro h
    have hpath := h.below [.key "tokens".toList, .index 0] "tok-12345".toList (by rfl)
      ⟨"tokens".toList, by simp, by decide⟩
    exact absurd (Entry.str.inj (Option.some.inj hpath)) (by decide)

end Redaction

end AimData

/-
  The sandbox that a query of an external caller passes, and the statement that is
  run for it.

  The sandbox looks for patterns in the text of the query; it knows neither comments
  nor literals.  The query is then written between the parentheses of a statement
  that limits its rows.
-/
import AimData.Lib.PyText
import AimData.Lib.SqlText

namespace AimData

namespace Sql

/-! ## Patterns -/

/-- What strings and patterns take from the tables of Unicode: `str.upper`,
    `str.lower`, and the characters of `\w`. -/
structure Unicode where
  upper : List Char → List Char
  lower : List Char → List Char
  isWord : Char → Bool

/-- A letter of a pattern that ignores case; `I`, `S` and `K` have other forms. -/
def sameLetter (k c : Char) : Bool :=
  c.toUpper = k || (k = 'I' && (c.toNat = 0x130 || c.toNat = 0x131)) ||
    (k = 'S' && c.toNat = 0x17f) || (k = 'K' && c.toNat = 0x212a)

/-- `[a-zA-Z_]`, ignoring case. -/
def identStart (c : Char) : Bool :=
  c.isAlpha || c = '_' || c.toNat = 0x130 || c.toNat = 0x131 || c.toNat = 0x17f ||
    c.toNat = 0x212a

/-- `[a-zA-Z0-9_]`, ignoring case. -/
def identChar (c : Char) : Bool := identStart c || c.isDigit

/-- What is left after a keyword. -/
def dropKeyword : List Char → List Char → Option (List Char)
  | [], s => some s
  | _ :: _, [] => none
  | k :: keyword, c :: s => if sameLetter k c then dropKeyword keyword s else none

/-- What is left after `\s+`. -/
def dropSpaces : List Char → Option (List Char)
  | c :: s => if PyText.isSpace c then some (s.dropWhile PyText.isSpace) else none
  | [] => none

/-- A name, and what is left after it. -/
def takeIdent : List Char → Option (List Char × List Char)
  | c :: s =>
    if identStart c then some ((c :: s).takeWhile identChar, (c :: s).dropWhile identChar)
    else none
  | [] => none

/-- The matches of a pattern, from left to right, none within another; a pattern is
    given the character before the text, and returns what is left after a match. -/
def findAll {α : Type} (pattern : Option Char → List Char → Option (α × List Char)) :
    ℕ → Option Char → List Char → List α
  | 0, _, _ => []
  | fuel + 1, before, s =>
    match pattern before s, s with
    | some (a, rest), _ =>
      a :: findAll pattern fuel (s.take (s.length - rest.length)).getLast? rest
    | none, c :: s => findAll pattern fuel (some c) s
    | none, [] => []

/-- `re.findall` -/
def findall {α : Type} (pattern : Option Char → List Char → Option (α × List Char))
    (s : List Char) : List α :=
  findAll pattern (s.length + 1) none s

/-- `_TABLE_REF_PATTERN`: a schema, empty where there is none, and a table. -/
def tableRef (_ : Option Char) (s : List Char) : Option ((List Char × List Char) × List Char) := do
  let s ← (dropKeyword "FROM".toList s <|> dropKeyword "JOIN".toList s) >>= dropSpaces
  let (name, rest) ← takeIdent s
  match rest with
  | '.' :: qualified =>
    match takeIdent qualified with
    | some (table, rest) => return ((name, table), rest)
    | none => return (([], name), rest)
  | _ => return (([], name), rest)

/-- `\s+AS\s*\(` -/
def asBody (s : List Char) : Option (List Char) := do
  let s ← dropSpaces s >>= dropKeyword "AS".toList
  match s.dropWhile PyText.isSpace with
  | '(' :: rest => return rest
  | _ => none

section
variable (unicode : Unicode)

/-- `_CTE_NAME_PATTERN` -/
def cteName (before : Option Char) (s : List Char) : Option (List Char × List Char) := do
  let afterWith :=
    if before.any unicode.isWord then none else dropKeyword "WITH".toList s >>= dropSpaces
  let afterComma :=
    match s with
    | ',' :: s => some (s.dropWhile PyText.isSpace)
    | _ => none
  let (name, rest) ← (afterWith <|> afterComma) >>= takeIdent
  return (name, ← asBody rest)

/-- `(\w+)\.(\w+)` -/
def schemaRef (_ : Option Char) (s : List Char) : Option ((List Char × List Char) × List Char) :=
  let schema := s.takeWhile unicode.isWord
  match s.dropWhile unicode.isWord with
  | '.' :: s =>
    let table := s.takeWhile unicode.isWord
    if schema.isEmpty || table.isEmpty then none
    else some ((schema, table), s.dropWhile unicode.isWord)
  | _ => none

/-- `\b` of the name of a function, and `\s*\(` -/
def callOf (func : String) (before : Option Char) (s : List Char) : Option (Unit × List Char) :=
  if before.any unicode.isWord || !func.toList.isPrefixOf s then none
  else
    match (s.drop func.length).dropWhile PyText.isSpace with
    | '(' :: rest => some ((), rest)
    | _ => none

end

/-- `[\s,(]` -/
def isSeparator (c : Char) : Bool := PyText.isSpace c || c = ',' || c = '('

/-- A blocked word between two separators. -/
def wordAt (word : String) (_ : Option Char) (s : List Char) : Option (Unit × List Char) :=
  match s with
  | c :: s =>
    if isSeparator c && word.toList.isPrefixOf s then
      match s.drop word.length with
      | c :: rest => if isSeparator c then some ((), rest) else none
      | [] => none
    else none
  | [] => none

/-- `re.search` -/
def search {α : Type} (pattern : Option Char → List Char → Option (α × List Char))
    (s : List Char) : Bool :=
  !(findall pattern s).isEmpty

/-! ## The sandbox -/

/-- `BLOCKED_STATEMENTS`, in some order. -/
def blockedStatements : List String :=
  ["INSERT", "UPDATE", "DELETE", "DROP", "ALTER", "CREATE", "COPY", "ATTACH", "DETACH", "INSTALL",
    "LOAD", "PRAGMA", "EXPORT", "IMPORT", "VACUUM", "CHECKPOINT", "CALL", "EXECUTE", "SET",
    "RESET", "TRUNCATE", "REPLACE"]

def blockedFunctions : List String :=
  ["read_csv", "read_csv_auto", "read_parquet", "read_json", "read_json_auto", "read_blob", "glob",
    "read_text", "read_ndjson_auto", "read_ndjson", "st_read"]

/-- `EXTERNAL_BLOCKED_FUNCTIONS - BLOCKED_FUNCTIONS` -/
def externalOnlyFunctions : List String := ["httpfs", "http_get", "http_post"]

def externalBlockedFunctions : List String := blockedFunctions ++ externalOnlyFunctions

def externalBlockedPatterns : List String :=
  ["information_schema", "pg_catalog", "temp", "__internal"]

def externalBlockedSchemas : List String := ["information_schema", "pg_catalog", "temp", "main"]

/-- `"` and a blocked word and `"`, ignoring case. -/
def quotedKeyword (_ : Option Char) (s : List Char) : Option (List Char × List Char) := do
  let rest ← (blockedStatements.findSome? fun word => do
    match s with
    | '"' :: s =>
      match dropKeyword word.toList s with
      | some ('"' :: rest) => some rest
      | _ => none
    | _ => none)
  return (s.take (s.length - rest.length), rest)

/-- A table of a parsed statement. -/
structure ParsedTable where
  name : String
  db : String
  catalog : String

/-- A parsed statement: whether it is of a query class, or a `CTE`; the name of its
    class; its tables; and the functions that the parser does not know. -/
structure Statement where
  isQuery : Bool
  isCte : Bool
  className : String
  tables : List ParsedTable
  anonymous : List String

section
variable (unicode : Unicode)
  /- `sqlglot.parse`, or `none` without it; it may fail, and give statements that are `None` -/
  (sqlglot : Option (List Char → Option (List (Option Statement))))

def reject {α : Type} (message : String) : Except String α := .error message

def lowerText (s : String) : String := String.ofList (unicode.lower s.toList)

/-- `_validate_ast` of one statement. -/
def validateStatement (statement : Statement) : Except String Unit := do
  if !statement.isQuery then
    if statement.isCte then return
    reject ("AST validation: only SELECT statements allowed, got " ++ statement.className)
  statement.tables.forM fun table =>
    let db := lowerText unicode table.db
    if db ∈ externalBlockedSchemas ∨ lowerText unicode table.catalog ∈ externalBlockedSchemas then
      reject ("AST validation: blocked schema access '" ++ db ++ "." ++
        lowerText unicode table.name ++ "'")
    else pure ()
  statement.anonymous.forM fun func =>
    let name := lowerText unicode func
    if name ∈ externalBlockedFunctions then
      reject ("AST validation: blocked function '" ++ name ++ "'")
    else pure ()

/-- `_validate_ast` -/
def validateAst (sql : List Char) : Except String Unit :=
  match sqlglot.bind (· sql) with
  | none => pure ()
  | some statements => statements.forM fun statement =>
    match statement with
    | none => pure ()
    | some statement => validateStatement unicode statement

/-- `sql.strip().rstrip(";").strip()` -/
def cleanSql (sql : List Char) : List Char :=
  PyText.strip (PyText.rstrip (· = ';') (PyText.strip sql))

/-- `sql.split()[0]`, empty where there is none. -/
def firstToken (sql : List Char) : List Char :=
  (sql.dropWhile PyText.isSpace).takeWhile (!PyText.isSpace ·)

/-- A table of the query that is neither allowed, nor named by the query, nor a function. -/
def tableRejected (allowed : List String) (cteNames : List (List Char)) (table : List Char) :
    Bool :=
  let lower := unicode.lower table
  lower ∉ ["dual", "generate_series", "range", "unnest"].map String.toList &&
    lower ∉ cteNames && lower ∉ allowed.map String.toList

/-- `SQLSandbox.validate`; `allowed` are the allowed tables, in lower case. -/
def validate (allowed : List String) (sql : List Char) : Except String Unit := do
  if (PyText.strip sql).isEmpty then reject "Empty SQL query"
  let stripped := cleanSql sql
  if ';' ∈ stripped then reject "Multiple SQL statements not allowed"
  let token := firstToken stripped
  if token.isEmpty then reject "Empty SQL query"
  let keyword := unicode.upper token
  if keyword ≠ "SELECT".toList ∧ keyword ≠ "WITH".toList then
    reject ("Only SELECT queries allowed, got: " ++ String.ofList keyword)
  let padded := ' ' :: (unicode.upper stripped ++ [' '])
  blockedStatements.forM fun blocked =>
    if search (wordAt blocked) padded then reject ("Blocked SQL operation: " ++ blocked)
    else pure ()
  let lower := unicode.lower stripped
  blockedFunctions.forM fun func =>
    if search (callOf unicode func) lower then reject ("Blocked function: " ++ func)
    else pure ()
  let cteNames := (findall (cteName unicode) stripped).map unicode.lower
  (findall tableRef stripped).forM fun (schema, table) =>
    if tableRejected unicode allowed cteNames table then
      let display := if schema.isEmpty then table else schema ++ '.' :: table
      reject ("Table '" ++ String.ofList display ++ "' is not accessible. Available tables: " ++
        ", ".intercalate (allowed.mergeSort (· ≤ ·)))
    else pure ()

/-- `SQLSandbox.validate_external` -/
def validateExternal (allowed : List String) (sql : List Char) (maxLength : ℕ) :
    Except String Unit := do
  if (PyText.strip sql).isEmpty then reject "Empty SQL query"
  if maxLength < sql.length then
    reject ("SQL exceeds maximum length of " ++ toString maxLength ++ " characters")
  validate unicode allowed sql
  let lower := unicode.lower sql
  externalOnlyFunctions.forM fun func =>
    if search (callOf unicode func) lower then reject ("Blocked function: " ++ func)
    else pure ()
  externalBlockedPatterns.forM fun pattern =>
    if pattern.toList <:+: lower then
      reject ("Access to '" ++ pattern ++ "' is not allowed for external queries")
    else pure ()
  (findall (schemaRef unicode) lower).forM fun (schema, table) =>
    if String.ofList schema ∈ externalBlockedSchemas ∧
        "dataset_" ++ String.ofList table ∉ allowed then
      reject ("Schema-qualified access '" ++ String.ofList (schema ++ '.' :: table) ++
        "' is not allowed for external queries")
    else pure ()
  match findall quotedKeyword sql with
  | [] => pure ()
  | quoted :: _ => reject ("Blocked keyword in quoted identifier: " ++ String.ofList quoted)
  validateAst unicode sqlglot sql

end

/-! ## The query that is run -/

/-- A row of the datasets. -/
structure DatasetRecord where
  id : String
  externallyQueryable : Bool
  status : String

def DatasetRecord.queryable (record : DatasetRecord) : Bool :=
  record.externallyQueryable && record.status = "preview_ready"

/-- The settings of `execute_sql`. -/
structure Limits where
  maxLength : ℕ
  maxRows : ℕ

/-- `_get_queryable_dataset` -/
def getQueryableDataset (datasets : List DatasetRecord) (datasetId : String) :
    Except (String × String) Unit :=
  match datasets.find? (·.id = datasetId) with
  | none => .error ("dataset_not_found", "Dataset '" ++ datasetId ++ "' not found")
  | some record =>
    if !record.externallyQueryable then
      .error ("dataset_not_found",
        "Dataset '" ++ datasetId ++ "' is not available for external queries")
    else if record.status ≠ "preview_ready" then
      .error ("dataset_not_found", "Dataset '" ++ datasetId ++ "' is not ready")
    else pure ()

/-- The datasets that a query may read: those that can be queried, or the one it names. -/
def readableIds (datasets : List DatasetRecord) :
    Option String → Except (String × String) (List String)
  | none | some "" => .ok ((datasets.filter DatasetRecord.queryable).map DatasetRecord.id)
  | some id => do
    getQueryableDataset datasets id
    return [id]

/-- The wrapper before the query, up to its parenthesis. -/
def wrapperBefore : List Char := "SELECT * FROM ".toList

/-- The wrapper after its closing parenthesis. -/
def wrapperAfter (maxRows : ℕ) : List Char :=
  " AS __ext_q LIMIT ".toList ++ Nat.toDigits 10 maxRows

/-- `f"SELECT * FROM ({clean_sql}) AS __ext_q LIMIT {max_rows}"` -/
def wrapSql (clean : List Char) (maxRows : ℕ) : List Char :=
  wrapperBefore ++ '(' :: (clean ++ ')' :: wrapperAfter maxRows)

section
variable (unicode : Unicode)
  (sqlglot : Option (List Char → Option (List (Option Statement))))

/-- `execute_sql`, up to the statement that it runs. -/
def executeSql (limits : Limits) (datasets : List DatasetRecord) (sql : List Char)
    (datasetId : Option String) : Except (String × String) (List Char) := do
  if limits.maxLength < sql.length then
    throw ("sql_too_long",
      "SQL exceeds maximum length of " ++ toString limits.maxLength ++ " characters")
  let ids ← readableIds datasets datasetId
  let allowed := ids.map fun id => lowerText unicode ("dataset_" ++ id)
  (validateExternal unicode sqlglot allowed sql 4096).mapError fun e => ("forbidden_sql", e)
  return wrapSql (cleanSql sql) limits.maxRows

end

end Sql

end AimData

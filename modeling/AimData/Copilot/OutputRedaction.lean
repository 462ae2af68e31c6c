/-
  The redaction of text for the model's context, which is meant to keep UUIDs.

  Every UUID is replaced by a placeholder, the rules are applied, and the placeholders are
  replaced again.  The text is taken as tokens, characters and UUIDs, that are read with the UUIDs
  or with the placeholders (`view`).  It is orderly if every rule's matches take whole tokens and
  what looks like a placeholder is one.
-/
import AimData.Lib.PyText
import AimData.Lib.Regex

namespace AimData

namespace OutputRedaction

open Regex (Re)

abbrev Text := List Char

/-! ## The rules -/

/-- `[0-9a-f]`, in any case -/
def hexDigits : Text := "0123456789abcdefABCDEF".toList

def hexDigit (c : Char) : Bool := decide (c ∈ hexDigits)

/-- `UUID_PATTERN` -/
def uuidPattern : Re :=
  .seq (.times hexDigit 8) (.seq (.cls (· = '-')) (.seq (.times hexDigit 4) (.seq (.cls (· = '-'))
    (.seq (.times hexDigit 4) (.seq (.cls (· = '-')) (.seq (.times hexDigit 4)
      (.seq (.cls (· = '-')) (.times hexDigit 12))))))))

inductive RuleKind where
  | privateKey | apiKey | bearerToken | keyValue | databaseUrl | path
  deriving DecidableEq

/-- A rule: its replacement is written with the match's group 1. -/
structure Rule where
  kind : RuleKind
  pattern : Re
  replacement : Option Text → Text

/-- `pattern.sub(replacement, text)` -/
def Rule.apply (rule : Rule) (text : Text) : Text :=
  Regex.sub rule.pattern (fun m => rule.replacement m.group) text

def space (least : ℕ) : Re := .many PyText.isSpace least

def nonspace (c : Char) : Bool := !PyText.isSpace c

/-- The line that opens or closes a private key. -/
def keyLine (mark : String) : Re :=
  .seq (.lit mark.toList) (.seq (.many (fun c => c.isUpper || c = ' ') 0)
    (.lit "PRIVATE KEY-----".toList))

def privateKeyRule : Rule where
  kind := .privateKey
  pattern := .seq (keyLine "-----BEGIN") (.seq (.fewest fun _ => true) (keyLine "-----END"))
  replacement _ := "[PRIVATE_KEY_REDACTED]".toList

/-- An API key: its prefix, and at least `least` characters of a class. -/
def apiKeyRule (start : String) (p : Char → Bool) (least : ℕ) : Rule where
  kind := .apiKey
  pattern := .seq (.lit start.toList) (.many p least)
  replacement _ := "[API_KEY_REDACTED]".toList

def bearerRule : Rule where
  kind := .bearerToken
  pattern := .seq (.seq (.lit "Bearer".toList) (space 1)) (.many nonspace 10)
  replacement _ := "Bearer [REDACTED]".toList

def keyValueRule : Rule where
  kind := .keyValue
  pattern := .seq (.seq (.group (.alts [.litFold "password".toList, .litFold "secret".toList,
    .litFold "token".toList, .litFold "api_key".toList, .litFold "apikey".toList,
    .litFold "auth".toList])) (.seq (space 0) (.seq (.cls fun c => c = '=' || c = ':') (space 0))))
    (.many (fun c => nonspace c && decide (c ∉ [',', ';', '\x7d', ']', ')', '"', '\'' ])) 6)
  replacement group := group.getD [] ++ "=[REDACTED]".toList

def databaseUrlRule : Rule where
  kind := .databaseUrl
  pattern := .seq (.seq (.group (.alts [.lit "postgres".toList, .lit "mysql".toList,
    .lit "redis".toList, .lit "mongodb".toList])) (.lit "://".toList))
    (.seq (.many nonspace 1) (.seq (.cls (· = ':')) (.seq (.many nonspace 1) (.cls (· = '@')))))
  replacement group := group.getD [] ++ "://[CREDENTIALS_REDACTED]@".toList

def pathRule (start : String) : Rule where
  kind := .path
  pattern := .seq (.lit start.toList)
    (.many (fun c => nonspace c && decide (c ∉ ['"', '\'' ])) 1)
  replacement _ := "[PATH_REDACTED]".toList

/-- `REDACTION_RULES` -/
def redactionRules : List Rule :=
  [ privateKeyRule,
    apiKeyRule "sk-ant-" (fun c => c.isAlphanum || c = '-') 20,
    apiKeyRule "sk-" Char.isAlphanum 20,
    apiKeyRule "xai-" Char.isAlphanum 20,
    apiKeyRule "gsk_" Char.isAlphanum 20,
    apiKeyRule "AIza" (fun c => c.isAlphanum || c = '_' || c = '-') 30,
    bearerRule,
    keyValueRule,
    databaseUrlRule,
    pathRule "/Users/",
    pathRule "/home/" ]

/-- The rules applied to a text, one after the other. -/
def applyRules (text : Text) : Text := redactionRules.foldl (fun text rule => rule.apply text) text

/-! ## The redaction -/

/-- `f"__UUID_{i}__"` -/
def placeholder (i : ℕ) : Text := "__UUID_".toList ++ Nat.toDigits 10 i ++ "__".toList

/-- The dictionary `uuid_map`, in the order of its keys. -/
def uuidMap (text : Text) : List (Text × Text) :=
  (Regex.finditer uuidPattern text).foldl
    (fun found m => found ++ [(placeholder found.length, m.2.taken)]) []

/-- The text with the first occurrence of every UUID replaced, one after the other. -/
def protect (uuids : List (Text × Text)) (text : Text) : Text :=
  uuids.foldl (fun text entry => PyText.replaceFirst entry.2 entry.1 text) text

def restore (uuids : List (Text × Text)) (text : Text) : Text :=
  uuids.foldl (fun text entry => PyText.replace entry.1 entry.2 text) text

/-- `redact_for_llm` -/
def redactForLlm (text : Text) : Text :=
  if text = [] then text
  else restore (uuidMap text) (applyRules (protect (uuidMap text) text))

/-! ## Tokens -/

/-- A character, or the UUID that is found at some turn. -/
inductive Token where
  | char (c : Char)
  | uuid (index : ℕ) (text : Text)
  deriving DecidableEq

/-- The token with the UUIDs of some indices shown, and placeholders for the others. -/
def Token.render (shown : ℕ → Bool) : Token → Text
  | char c => [c]
  | uuid i u => if shown i then u else placeholder i

def render (shown : ℕ → Bool) (tokens : List Token) : Text := tokens.flatMap (Token.render shown)

/-- The text with the UUIDs, or with the placeholders. -/
def view (uuids : Bool) (tokens : List Token) : Text := render (fun _ => uuids) tokens

/-- The tokens of a scan for UUIDs. -/
def number : ℕ → List Regex.Piece → List Token
  | _, [] => []
  | i, .plain c :: pieces => .char c :: number i pieces
  | i, .hit m :: pieces => .uuid i m.taken :: number (i + 1) pieces

def tokens (text : Text) : List Token := number 0 (Regex.scan uuidPattern 0 text)

/-- The match at the start takes UUIDs as a whole, and what it takes is matched with the
    placeholders too. -/
def whole (r : Re) (tokens : List Token) : Bool :=
  (r.match? (view true tokens)).all fun m => tokens.inits.any fun taken =>
    decide (view true taken = m.taken) &&
      (r.match? (view false taken)).any fun m' => decide (m'.taken = view false taken)

/-- The tokens after a rule, `skip` characters of which a match before has taken.  There are none
    where a match begins inside a UUID, or an API key is not matched as a whole. -/
def pass (rule : Rule) : ℕ → List Token → Option (List Token)
  | _, [] => some []
  | skip + 1, t :: tokens => pass rule (skip + 1 - (t.render fun _ => true).length) tokens
  | 0, .char c :: tokens =>
    match rule.pattern.match? (view true (.char c :: tokens)) with
    | none => (pass rule 0 tokens).map (.char c :: ·)
    | some m =>
      if rule.kind = .apiKey ∧ whole rule.pattern (.char c :: tokens) = false then none
      else (pass rule (m.taken.length - 1) tokens).map
        ((rule.replacement m.group).map Token.char ++ ·)
  | 0, .uuid i u :: tokens =>
    if u.tails.all fun x => x = [] || (rule.pattern.match? (x ++ view true tokens)).isNone then
      (pass rule 0 tokens).map (.uuid i u :: ·)
    else none

/-- The tokens after the rules. -/
def passes (tokens : List Token) : Option (List Token) :=
  redactionRules.foldlM (fun tokens rule => pass rule 0 tokens) tokens

def Token.isUuid (i : ℕ) : Token → Bool
  | char _ => false
  | uuid j _ => j = i

/-- When its turn comes, the placeholder `i` occurs only where its UUID was. -/
def unmixed (tokens : List Token) (i : ℕ) : Bool :=
  !PyText.strays (placeholder i) (Token.isUuid i) (Token.render (· < i)) tokens

/-- No rule's match begins inside a UUID, API keys are matched as a whole, and what looks like a
    placeholder is one. -/
def orderly (text : Text) : Bool :=
  (passes (tokens text)).any fun after => (List.range (uuidMap text).length).all (unmixed after)

end OutputRedaction

end AimData

import OpenClaw.Exec.ShellArgv

/-! Splitting a command line.

`splitCommandChainWithOperators` cuts a line at `&&`, `||` and `;`, and
`splitShellPipeline` cuts each part at `|`. They are two scanners with the same idea of
quotes, escapes and comments. Only the second one knows heredocs, and refuses what
neither of them can follow: substitutions, redirections, groups and bare newlines. -/
namespace OpenClaw.Exec
open Foundation (Scan ScanStep)
open Foundation.EcmaString (isWhiteSpace trimChars)

/-- `DOUBLE_QUOTE_ESCAPES` of the line splitters. -/
def doubleQuoteEscapes : List Char := ['\\', '"', '$', '\u0060']

def isNewline (c : Char) : Bool := c = '\n' || c = '\r'

def isEscapedLineContinuation (next : Option Char) : Bool := next.any isNewline

/-- A `#` at the start of the source or after white space. -/
def isShellCommentStart (before : Option Char) (ch : Char) : Bool := ch = '#' && before.all isWhiteSpace

/-- A backslash at the end of a line. -/
def hasShellLineContinuation : Text → Bool
  | [] => false
  | ch :: rest => (ch = '\\' && isEscapedLineContinuation rest.head?) || hasShellLineContinuation rest

structure Quotes where
  inSingle : Bool := false
  inDouble : Bool := false
  escaped : Bool := false
  deriving Repr, DecidableEq

/-! ### Chains -/

inductive ShellChainOperator where
  | and
  | or
  | semicolon
  deriving Repr, DecidableEq

def ShellChainOperator.text : ShellChainOperator → Text
  | .and => ['&', '&']
  | .or => ['|', '|']
  | .semicolon => [';']

structure ShellChainPart where
  part : Text
  opToNext : Option ShellChainOperator
  deriving Repr, DecidableEq

structure ChainState where
  parts : List ShellChainPart := []
  buf : Text := []
  quotes : Quotes := {}
  foundChain : Bool := false
  invalidChain : Bool := false
  deriving Repr, DecidableEq

namespace ChainState

def add (s : ChainState) (text : Text) (quotes : Quotes) : ChainState :=
  {s with buf := s.buf ++ text, quotes := quotes}

/-- `pushPart` at an operator: a chain with nothing before the operator is malformed. -/
def cut (s : ChainState) (op : ShellChainOperator) : ChainState :=
  if trimChars s.buf = [] then {s with buf := [], invalidChain := true, foundChain := true}
  else {s with parts := s.parts ++ [⟨trimChars s.buf, some op⟩], buf := [], foundChain := true}

end ChainState

def chainStep : ScanStep ChainState Unit := fun s before ch rest =>
  let next := rest.head?
  let q := s.quotes
  if q.escaped then .go (s.add [ch] {q with escaped := false}) 0
  else if !q.inSingle && !q.inDouble && ch = '\\' then .go (s.add [ch] {q with escaped := true}) 0
  else if q.inSingle then .go (s.add [ch] {q with inSingle := ch ≠ '\''}) 0
  else if q.inDouble then
    if ch = '\\' && isEscapedLineContinuation next then .stop {s with invalidChain := true}
    else if ch = '\\' && isDoubleQuoteEscape doubleQuoteEscapes next then
      .go (s.add (ch :: next.toList) q) 1
    else .go (s.add [ch] {q with inDouble := ch ≠ '"'}) 0
  else if ch = '\'' then .go (s.add [ch] {q with inSingle := true}) 0
  else if ch = '"' then .go (s.add [ch] {q with inDouble := true}) 0
  else if isShellCommentStart before ch then .stop s
  else if ch = '&' && next = some '&' then .go (s.cut .and) 1
  else if ch = '|' && next = some '|' then .go (s.cut .or) 1
  else if ch = ';' then .go (s.cut .semicolon) 0
  else .go (s.add [ch] q) 0

def ChainState.finish (s : ChainState) : Option (List ShellChainPart) :=
  if !s.foundChain || trimChars s.buf = [] || s.invalidChain then none
  else some (s.parts ++ [⟨trimChars s.buf, none⟩])

/-- `none` when there is no chain, or a malformed one. -/
def splitCommandChainWithOperators (command : Text) : Option (List ShellChainPart) :=
  match Scan.scan chainStep {} none 0 command with
  | .ok s => s.finish
  | .error _ => none

def splitCommandChain (command : Text) : Option (List Text) :=
  (splitCommandChainWithOperators command).map (·.map (·.part))

/-! ### Heredocs -/

structure HeredocSpec where
  delimiter : Text
  stripTabs : Bool
  quoted : Bool
  deriving Repr, DecidableEq

/-- The delimiter between quotes, and how much of the text it takes with its closing quote.
Between double quotes a backslash escapes the next character. -/
def quotedDelimiter (quote : Char) : Bool → Text → Option (Text × Nat)
  | _, [] => none
  | true, ch :: rest => (quotedDelimiter quote false rest).map fun d => (ch :: d.1, d.2 + 1)
  | false, ch :: rest =>
    if isNewline ch then none
    else if quote = '"' && ch = '\\' && rest ≠ [] then
      (quotedDelimiter quote true rest).map fun d => (d.1, d.2 + 1)
    else if ch = quote then some ([], 1)
    else (quotedDelimiter quote false rest).map fun d => (ch :: d.1, d.2 + 1)

def isBareDelimiterChar (ch : Char) : Bool := !(isWhiteSpace ch || ch ∈ ['|', '&', ';', '<', '>'])

structure ParsedDelimiter where
  delimiter : Text
  /-- How much of the text was read. -/
  length : Nat
  quoted : Bool
  deriving Repr, DecidableEq

def isBlank (ch : Char) : Bool := ch = ' ' || ch = '\t'

def parseHeredocDelimiter (source : Text) : Option ParsedDelimiter :=
  let blanks := (source.takeWhile isBlank).length
  match source.dropWhile isBlank with
  | [] => none
  | first :: rest =>
    if first = '\'' || first = '"' then
      (quotedDelimiter first false rest).map fun d => ⟨d.1, blanks + 1 + d.2, true⟩
    else
      let delimiter := (first :: rest).takeWhile isBareDelimiterChar
      if delimiter = [] then none else some ⟨delimiter, blanks + delimiter.length, false⟩

/-- The line that is compared with the delimiter. -/
def HeredocSpec.stripped (spec : HeredocSpec) (line : Text) : Text :=
  if spec.stripTabs then line.dropWhile (· = '\t') else line

/-- `odd`: the character stands after an odd number of backslashes. -/
def hasUnquotedHeredocExpansionToken (odd : Bool) : Text → Bool
  | [] => false
  | ch :: rest =>
    (!odd && (ch = '\u0060' || (ch = '$' && rest.head?.any (· ∈ ['(', '\x7b'])))) ||
      hasUnquotedHeredocExpansionToken (ch = '\\' && !odd) rest

/-! ### Pipelines -/

/-- `DISALLOWED_PIPELINE_TOKENS`. -/
def disallowedPipelineTokens : List Char := ['>', '<', '\u0060', '\n', '\r', '(', ')']

def unsupportedToken (token : Text) : Text := "unsupported shell token: ".toList ++ token

structure PipelineState where
  segments : List Text := []
  buf : Text := []
  quotes : Quotes := {}
  emptySegment : Bool := false
  pendingHeredocs : List HeredocSpec := []
  inHeredocBody : Bool := false
  heredocLine : Text := []
  deriving Repr, DecidableEq

variable (s : PipelineState)

namespace PipelineState

def add (text : Text) (quotes : Quotes) : PipelineState :=
  {s with buf := s.buf ++ text, quotes := quotes, emptySegment := false}

def pushPart : PipelineState :=
  {s with segments := s.segments ++ [trimChars s.buf].filter (· ≠ []), buf := []}

/-- The end of a line of a heredoc's body. -/
def endHeredocLine : Except Text PipelineState :=
  match s.pendingHeredocs with
  | [] => .ok s
  | current :: rest =>
    if current.stripped s.heredocLine = current.delimiter then .ok {s with pendingHeredocs := rest}
    else if !current.quoted && hasUnquotedHeredocExpansionToken false s.heredocLine then
      .error "command substitution in unquoted heredoc".toList
    else .ok s

/-- A heredoc operator, before `source`: what is written, and how much of `source` it takes.
Without a delimiter a dash is written here and read again. -/
def openHeredoc (source : Text) : PipelineState × Nat :=
  let stripTabs : Bool := source.head? = some '-'
  let dash := if stripTabs then ['-'] else []
  match parseHeredocDelimiter (source.drop dash.length) with
  | none => (s.add ('<' :: '<' :: dash) s.quotes, 0)
  | some parsed =>
    let taken := dash.length + parsed.length
    ({s.add ('<' :: '<' :: source.take taken) s.quotes with
      pendingHeredocs := s.pendingHeredocs ++ [⟨parsed.delimiter, stripTabs, parsed.quoted⟩]}, taken)

end PipelineState

def heredocBodyStep (ch : Char) (next : Option Char) : Scan PipelineState Text :=
  if isNewline ch then
    match s.endHeredocLine with
    | .error e => .fail e
    | .ok s' =>
      .go {s' with heredocLine := [], inHeredocBody := s'.pendingHeredocs ≠ []}
        (if ch = '\r' && next = some '\n' then 1 else 0)
  else .go {s with heredocLine := s.heredocLine ++ [ch]} 0

def doubleQuotedStep (ch : Char) (next : Option Char) : Scan PipelineState Text :=
  let q := s.quotes
  if ch = '\\' && isEscapedLineContinuation next then .fail (unsupportedToken "newline".toList)
  else if ch = '\\' && isDoubleQuoteEscape doubleQuoteEscapes next then .go (s.add (ch :: next.toList) q) 1
  else if ch = '$' && next = some '(' then .fail (unsupportedToken "$()".toList)
  else if ch = '\u0060' then .fail (unsupportedToken [ch])
  else if isNewline ch then .fail (unsupportedToken "newline".toList)
  else .go (s.add [ch] {q with inDouble := ch ≠ '"'}) 0

def unquotedStep (before : Option Char) (ch : Char) (rest : Text) : Scan PipelineState Text :=
  let next := rest.head?
  let q := s.quotes
  if ch = '\'' then .go (s.add [ch] {q with inSingle := true}) 0
  else if ch = '"' then .go (s.add [ch] {q with inDouble := true}) 0
  else if isShellCommentStart before ch then .stop s
  else if isNewline ch && s.pendingHeredocs ≠ [] then
    .go {s with inHeredocBody := true, heredocLine := []} (if ch = '\r' && next = some '\n' then 1 else 0)
  else if ch = '|' && next = some '|' then .fail (unsupportedToken "||".toList)
  else if ch = '|' && next = some '&' then .fail (unsupportedToken "|&".toList)
  else if ch = '|' then .go {s with emptySegment := true}.pushPart 0
  else if ch = '&' || ch = ';' then .fail (unsupportedToken [ch])
  else if ch = '<' && next = some '<' then
    .go (s.openHeredoc rest.tail).1 (1 + (s.openHeredoc rest.tail).2)
  else if ch ∈ disallowedPipelineTokens then .fail (unsupportedToken [ch])
  else if ch = '$' && next = some '(' then .fail (unsupportedToken "$()".toList)
  else .go (s.add [ch] q) 0

def pipelineStep : ScanStep PipelineState Text := fun s before ch rest =>
  let q := s.quotes
  if s.inHeredocBody then heredocBodyStep s ch rest.head?
  else if q.escaped then .go (s.add [ch] {q with escaped := false}) 0
  else if !q.inSingle && !q.inDouble && ch = '\\' then .go (s.add [ch] {q with escaped := true}) 0
  else if q.inSingle then .go (s.add [ch] {q with inSingle := ch ≠ '\''}) 0
  else if q.inDouble then doubleQuotedStep s ch rest.head?
  else unquotedStep s before ch rest

/-- The text may end with the last heredoc's delimiter. -/
def PipelineState.closeHeredoc : PipelineState :=
  match s.pendingHeredocs with
  | current :: rest =>
    if s.inHeredocBody && current.stripped s.heredocLine = current.delimiter then
      {s with pendingHeredocs := rest, inHeredocBody := rest ≠ []}
    else s
  | [] => s

def PipelineState.finish : Except Text (List Text) :=
  if s.closeHeredoc.pendingHeredocs ≠ [] || s.closeHeredoc.inHeredocBody then
    .error "unterminated heredoc".toList
  else if s.quotes.escaped || s.quotes.inSingle || s.quotes.inDouble then
    .error "unterminated shell quote/escape".toList
  else if s.pushPart.segments = [] then .error "empty command".toList
  else if s.emptySegment then .error "empty pipeline segment".toList
  else .ok s.pushPart.segments

def splitShellPipeline (command : Text) : Except Text (List Text) :=
  (Scan.scan pipelineStep {} none 0 command).bind PipelineState.finish

example : splitCommandChain "ls -l && echo 'a;b' ; cat x\\;y # && z".toList =
    some ["ls -l".toList, "echo 'a;b'".toList, "cat x\\;y".toList] := by decide
example : splitShellPipeline "cat <<'E' | wc -l\n$(x)\nE".toList =
    .ok ["cat <<'E'".toList, "wc -l".toList] := by decide
example : splitShellPipeline "cat <<E\n$(x)\nE".toList =
    .error "command substitution in unquoted heredoc".toList := by decide
example : splitShellPipeline "ls\nid".toList = .error "unsupported shell token: \n".toList := by decide

end OpenClaw.Exec

import OpenClaw.Foundation.EcmaString
import OpenClaw.Foundation.Scan

/-! Splitting a command segment into its argv.

`splitShellArgs` reads a POSIX segment and `tokenizeWindowsSegment` a Windows one.
Texts are lists of characters: whatever the scanners look for is a single unit of the
source's strings. -/
namespace OpenClaw.Exec
open Foundation (Scan ScanStep)
open Foundation.EcmaString (isWhiteSpace)

abbrev Text := List Char

/-! ### POSIX -/

/-- `DOUBLE_QUOTE_ESCAPES` of the argv splitter. -/
def argsDoubleQuoteEscapes : List Char := ['\\', '"', '$', '\u0060', '\n', '\r']

def isDoubleQuoteEscape (escapes : List Char) (next : Option Char) : Bool := next.any (· ∈ escapes)

structure ArgsState where
  tokens : List Text := []
  buf : Text := []
  inSingle : Bool := false
  inDouble : Bool := false
  escaped : Bool := false
  deriving Repr, DecidableEq

namespace ArgsState

def pushToken (s : ArgsState) : ArgsState :=
  if s.buf.length > 0 then {s with tokens := s.tokens ++ [s.buf], buf := []} else s

def add (s : ArgsState) (c : Char) : ArgsState := {s with buf := s.buf ++ [c]}

end ArgsState

def argsStep : ScanStep ArgsState Unit := fun s _ ch rest =>
  if s.escaped then .go {s.add ch with escaped := false} 0
  else if !s.inSingle && !s.inDouble && ch = '\\' then .go {s with escaped := true} 0
  else if s.inSingle then .go (if ch = '\'' then {s with inSingle := false} else s.add ch) 0
  else if s.inDouble then
    if ch = '\\' && isDoubleQuoteEscape argsDoubleQuoteEscapes rest.head? then
      .go (s.add (rest.head?.getD ch)) 1
    else .go (if ch = '"' then {s with inDouble := false} else s.add ch) 0
  else if ch = '\'' then .go {s with inSingle := true} 0
  else if ch = '"' then .go {s with inDouble := true} 0
  -- "#" starts a comment only when it begins a word
  else if ch = '#' && s.buf.length = 0 then .stop s
  else if isWhiteSpace ch then .go s.pushToken 0
  else .go (s.add ch) 0

def splitShellArgs (raw : Text) : Option (List Text) :=
  match Scan.scan argsStep {} none 0 raw with
  | .ok s => if s.escaped || s.inSingle || s.inDouble then none else some s.pushToken.tokens
  | .error _ => none

/-! ### Windows -/

structure WindowsState where
  tokens : List Text := []
  buf : Text := []
  inDouble : Bool := false
  inSingle : Bool := false
  /-- A quote was opened in the current token: an empty one is a token too. -/
  wasQuoted : Bool := false
  deriving Repr, DecidableEq

namespace WindowsState

def pushToken (s : WindowsState) : WindowsState :=
  if s.buf.length > 0 || s.wasQuoted then {s with tokens := s.tokens ++ [s.buf], buf := [], wasQuoted := false}
  else {s with wasQuoted := false}

def add (s : WindowsState) (c : Char) : WindowsState := {s with buf := s.buf ++ [c]}

end WindowsState

def windowsStep : ScanStep WindowsState Unit := fun s _ ch rest =>
  if ch = '"' && !s.inSingle then
    .go {s with wasQuoted := s.wasQuoted || !s.inDouble, inDouble := !s.inDouble} 0
  else if ch = '\'' && !s.inDouble then
    -- '' inside a single-quoted string is a literal apostrophe
    if s.inSingle && rest.head? = some '\'' then .go (s.add '\'') 1
    else .go {s with wasQuoted := s.wasQuoted || !s.inSingle, inSingle := !s.inSingle} 0
  else if !s.inDouble && !s.inSingle && isWhiteSpace ch then .go s.pushToken 0
  else .go (s.add ch) 0

def tokenizeWindowsSegment (segment : Text) : Option (List Text) :=
  match Scan.scan windowsStep {} none 0 segment with
  | .ok s =>
    if s.inDouble || s.inSingle then none
    else if s.pushToken.tokens.length > 0 then some s.pushToken.tokens else none
  | .error _ => none

example : splitShellArgs "echo 'a b'\"c\\\"d\" # e".toList = some ["echo".toList, "a bc\"d".toList] := by decide
example : tokenizeWindowsSegment "node 'O''Brien' \"\"".toList = some ["node".toList, "O'Brien".toList, []] := by
  decide

end OpenClaw.Exec

import EntityForge.Yaml.Scalar.Gap

/-!
# Quoted scalars

Between single quotes only the quote itself is written twice. Between double quotes a backslash
starts an escape: a letter, a code point, or a line break that does not count. In both, line breaks
are folded as in plain scalars, and a line that starts or ends a document is an error.
-/

namespace EntityForge.Yaml

/-- Reads on between single quotes, after the characters `read`, held last first, and a gap. -/
def readSingleQuotedAfter (read : List Char) (gap : Gap) :
    List PlacedChar → Except YamlError (String × List PlacedChar)
  | [] => .error .openQuote
  | g :: rest =>
    if atDocumentMark (g :: rest) then .error .openQuote
    else if isBlank g.char || isBreak g.char then readSingleQuotedAfter read (gap.push g.char) rest
    else if g.char = '\'' then
      match rest with
      | h :: rest =>
        if h.char = '\'' then readSingleQuotedAfter ('\'' :: (gap.folded ++ read)) .empty rest
        else .ok (String.ofList (gap.folded ++ read).reverse, h :: rest)
      | [] => .ok (String.ofList (gap.folded ++ read).reverse, [])
    else readSingleQuotedAfter (g.char :: (gap.folded ++ read)) .empty rest

/-- The character that a letter after a backslash stands for. -/
def escaped? (c : Char) : Option Char :=
  match c with
  | '0' => some '\x00'
  | 'a' => some '\x07'
  | 'b' => some '\x08'
  | 't' => some '\t'
  | '\t' => some '\t'
  | 'n' => some '\n'
  | 'v' => some '\x0b'
  | 'f' => some '\x0c'
  | 'r' => some '\r'
  | 'e' => some '\x1b'
  | ' ' => some ' '
  | '"' => some '"'
  | '/' => some '/'
  | '\\' => some '\\'
  | 'N' => some '\u0085'
  | '_' => some '\u00a0'
  | 'L' => some '\u2028'
  | 'P' => some '\u2029'
  | _ => none

/-- How many digits of a code point follow a letter after a backslash. -/
def codePointDigits? (c : Char) : Option Nat :=
  match c with
  | 'x' => some 2
  | 'u' => some 4
  | 'U' => some 8
  | _ => none

/-- What a character between double quotes is part of. -/
inductive EscapeState where
  | text
  /-- A backslash was read. -/
  | backslash
  /-- Digits of a code point are missing, one more than `missing`; the value so far is known. -/
  | codePoint (missing value : Nat)

/-- Reads on between double quotes, after the characters `read`, held last first, and a gap. -/
def readDoubleQuotedAfter (state : EscapeState) (read : List Char) (gap : Gap) :
    List PlacedChar → Except YamlError (String × List PlacedChar)
  | [] => .error .openQuote
  | g :: rest =>
    match state with
    | .text =>
      if atDocumentMark (g :: rest) then .error .openQuote
      else if isBlank g.char || isBreak g.char then
        readDoubleQuotedAfter .text read (gap.push g.char) rest
      else if g.char = '"' then .ok (String.ofList (gap.folded ++ read).reverse, rest)
      else if g.char = '\\' then readDoubleQuotedAfter .backslash (gap.folded ++ read) .empty rest
      else readDoubleQuotedAfter .text (g.char :: (gap.folded ++ read)) .empty rest
    | .backslash =>
      if isBreak g.char then readDoubleQuotedAfter .text read (.breaks none []) rest
      else
        match escaped? g.char, codePointDigits? g.char with
        | some c, _ => readDoubleQuotedAfter .text (c :: read) .empty rest
        | none, some n => readDoubleQuotedAfter (.codePoint (n - 1) 0) read .empty rest
        | none, none => .error .escapeSequence
    | .codePoint missing value =>
      match hexDigit? g.char with
      | none => .error .escapeSequence
      | some d =>
        let value := value * 16 + d
        match missing with
        | missing + 1 => readDoubleQuotedAfter (.codePoint missing value) read .empty rest
        | 0 =>
          if value.isValidChar then
            readDoubleQuotedAfter .text (Char.ofNat value :: read) .empty rest
          else .error .escapeSequence

/-- Reads a scalar after its opening quote. -/
def readQuoted (quote : Char) (cs : List PlacedChar) :
    Except YamlError (String × List PlacedChar) :=
  if quote = '\'' then readSingleQuotedAfter [] .empty cs
  else readDoubleQuotedAfter .text [] .empty cs

end EntityForge.Yaml

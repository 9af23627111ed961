import Metastring.Json.Lexical

/-!
# Passing over JSON values

The value of a key that means nothing is passed over.  It has to be well
formed, at any depth, but its numbers may be out of range and its texts may
contain lone surrogates.  Every call of the mutual functions is paid for by the
bound, and a bound of twice the number of characters is enough: a bracket costs
at most two calls, and each further element costs one and a comma.
-/

namespace Metastring.Json

/-- Pass over a value that contains no other values. -/
def skipScalar : List Char → Decoded (List Char)
  | 'n' :: text => afterWord ['u', 'l', 'l'] text
  | 't' :: text => afterWord ['r', 'u', 'e'] text
  | 'f' :: text => afterWord ['a', 'l', 's', 'e'] text
  | '"' :: text => skipQuoted text
  | text => do
    let (_, rest) ← number text
    return rest

mutual

def skipValueWithin : Nat → List Char → Decoded (List Char)
  | 0, _ => .error .malformed
  | bound + 1, text =>
    match skipSpace text with
    | '[' :: text =>
      match skipSpace text with
      | ']' :: rest => .ok rest
      | text => skipElementsWithin bound text
    | '\x7b' :: text =>
      match skipSpace text with
      | '\x7d' :: rest => .ok rest
      | text => skipEntriesWithin bound text
    | text => skipScalar text

/-- Pass over one or more elements and the bracket behind them. -/
def skipElementsWithin : Nat → List Char → Decoded (List Char)
  | 0, _ => .error .malformed
  | bound + 1, text => do
    let rest ← skipValueWithin bound text
    match skipSpace rest with
    | ',' :: text => skipElementsWithin bound text
    | ']' :: rest => .ok rest
    | _ => .error .malformed

/-- Pass over one or more keys with their values and the brace behind them. -/
def skipEntriesWithin : Nat → List Char → Decoded (List Char)
  | 0, _ => .error .malformed
  | bound + 1, text => do
    let text ← afterWord ['"'] (skipSpace text)
    let text ← skipQuoted text
    let text ← afterColon text
    let rest ← skipValueWithin bound text
    match skipSpace rest with
    | ',' :: text => skipEntriesWithin bound text
    | '\x7d' :: rest => .ok rest
    | _ => .error .malformed

end

def skipValue (text : List Char) : Decoded (List Char) :=
  skipValueWithin (2 * text.length + 2) text

end Metastring.Json

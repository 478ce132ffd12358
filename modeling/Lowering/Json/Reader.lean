import Lowering.Json

/-!
# Reading JSON

A reader takes a text character by character. It consists of two machines: a *lexer*, which is in
the middle of some token (`Mode`), and a *builder*, which holds the arrays and objects that are
open (`Frame`) and knows what may come next (`Expect`). The lexer hands every finished token to the
builder. Reading is a fold over the text and needs no look-ahead: a number ends at the first
character that cannot go on with it.

The grammar is the strict one: no leading zeros or plus signs, no comments, no trailing commas, no
raw control characters in strings, and nothing but blanks behind the value. Nesting is not limited
here.
-/

namespace Lowering.Json

/-! ## Tokens -/

/-- A piece of JSON text. -/
inductive Token where
  | openArr
  | closeArr
  | openObj
  | closeObj
  | colon
  | comma
  /-- a string, unless its escapes name no text -/
  | string (text : Option String)
  /-- any other value without parts -/
  | atom (value : Json)

/-- Where the lexer is in a number. -/
inductive NumberPhase where
  | sign
  | zero
  | digits
  | point
  | fraction
  | mark
  | markSign
  | exponent
deriving DecidableEq

/-- The characters of a string so far, the latest first. -/
structure StringState where
  chars : List Char
  /-- whether all escapes so far name characters -/
  wellFormed : Bool
  /-- a first surrogate that waits for its second -/
  surrogate : Option Nat

/-- What the lexer is in the middle of. -/
inductive Mode where
  /-- nothing -/
  | gap
  /-- a literal word, of which `rest` is missing -/
  | word (rest : List Char) (value : Json)
  | number (phase : NumberPhase) (negative : Bool) (magnitude : Nat)
  | string (state : StringState)
  /-- behind a backslash -/
  | escape (state : StringState)
  /-- a character's number in hexadecimal, `missing + 1` digits of it still to come -/
  | code (state : StringState) (missing : Nat) (value : Nat)

/-! ## The builder -/

/-- An array or object that is open; its parts so far, the latest first. -/
inductive Frame where
  | arr (items : List Json)
  /-- `wellFormed` tells whether all keys so far were texts -/
  | obj (fields : List (String × Json)) (wellFormed : Bool)
  /-- an object in the middle of a field -/
  | field (key : Option String) (fields : List (String × Json)) (wellFormed : Bool)

/-- What may come next. -/
inductive Expect where
  | value
  /-- a first item, or the end of the array -/
  | valueOrClose
  /-- a first key, or the end of the object -/
  | keyOrClose
  | key
  | colon
  /-- a comma, or the end of the innermost array or object -/
  | commaOrClose
  /-- nothing: the value is complete -/
  | finished (value : Json)

/-- The open arrays and objects, the innermost first, and what may come next. -/
structure Builder where
  frames : List Frame
  expect : Expect

namespace Builder

/-- At the start of a text. -/
def initial : Builder := ⟨[], .value⟩

/-- Puts a complete value into the innermost open array or object. -/
def put (v : Json) : List Frame → Option Builder
  | [] => some ⟨[], .finished v⟩
  | .arr items :: fs => some ⟨.arr (v :: items) :: fs, .commaOrClose⟩
  | .field (some k) fields ok :: fs => some ⟨.obj ((k, v) :: fields) ok :: fs, .commaOrClose⟩
  | .field none fields _ :: fs => some ⟨.obj fields false :: fs, .commaOrClose⟩
  | .obj .. :: _ => none

/-- Whether a value may come next. -/
def wantsValue (b : Builder) : Bool :=
  match b.expect with
  | .value | .valueOrClose => true
  | _ => false

/-- Takes a token. -/
def push (b : Builder) (t : Token) : Option Builder :=
  match t, b.expect, b.frames with
  | .openArr, _, frames =>
    if b.wantsValue then some ⟨.arr [] :: frames, .valueOrClose⟩ else none
  | .openObj, _, frames =>
    if b.wantsValue then some ⟨.obj [] true :: frames, .keyOrClose⟩ else none
  | .atom v, _, frames => if b.wantsValue then put v frames else none
  | .string text, .keyOrClose, .obj fields ok :: fs => some ⟨.field text fields ok :: fs, .colon⟩
  | .string text, .key, .obj fields ok :: fs => some ⟨.field text fields ok :: fs, .colon⟩
  | .string (some s), _, frames => if b.wantsValue then put (.str s) frames else none
  | .string none, _, frames => if b.wantsValue then put .other frames else none
  | .colon, .colon, frames => some ⟨frames, .value⟩
  | .comma, .commaOrClose, .arr items :: fs => some ⟨.arr items :: fs, .value⟩
  | .comma, .commaOrClose, .obj fields ok :: fs => some ⟨.obj fields ok :: fs, .key⟩
  | .closeArr, .valueOrClose, .arr items :: fs => put (.arr items.reverse) fs
  | .closeArr, .commaOrClose, .arr items :: fs => put (.arr items.reverse) fs
  | .closeObj, .keyOrClose, .obj fields ok :: fs =>
    put (if ok then .obj fields.reverse else .other) fs
  | .closeObj, .commaOrClose, .obj fields ok :: fs =>
    put (if ok then .obj fields.reverse else .other) fs
  | _, _, _ => none

end Builder

/-! ## The lexer -/

namespace StringState

def empty : StringState := ⟨[], true, none⟩

/-- A plain character. A surrogate that waits stays alone. -/
def push (s : StringState) (c : Char) : StringState :=
  ⟨c :: s.chars, s.wellFormed && s.surrogate.isNone, none⟩

/-- A character that is given by its number, which may be half of a surrogate pair. -/
def pushCode (s : StringState) (n : Nat) : StringState :=
  match s.surrogate with
  | some high =>
    if 0xDC00 ≤ n ∧ n < 0xE000 then
      ⟨Char.ofNat (0x10000 + (high - 0xD800) * 0x400 + (n - 0xDC00)) :: s.chars, s.wellFormed, none⟩
    else ⟨s.chars, false, none⟩
  | none =>
    if 0xD800 ≤ n ∧ n < 0xDC00 then ⟨s.chars, s.wellFormed, some n⟩
    else if 0xDC00 ≤ n ∧ n < 0xE000 then ⟨s.chars, false, none⟩
    else ⟨Char.ofNat n :: s.chars, s.wellFormed, none⟩

/-- The text of the string. -/
def finish (s : StringState) : Option String :=
  if s.wellFormed && s.surrogate.isNone then some (String.ofList s.chars.reverse) else none

end StringState

/-- The value of a hexadecimal digit. -/
def hexValue (c : Char) : Option Nat :=
  let n := c.toNat
  if 0x30 ≤ n ∧ n ≤ 0x39 then some (n - 0x30)
  else if 0x61 ≤ n ∧ n ≤ 0x66 then some (n - 0x61 + 10)
  else if 0x41 ≤ n ∧ n ≤ 0x46 then some (n - 0x41 + 10)
  else none

/-- The character that a letter behind a backslash stands for. -/
def unescape (c : Char) : Option Char :=
  match c with
  | '"' => some '"'
  | '\\' => some '\\'
  | '/' => some '/'
  | 'b' => some '\x08'
  | 'f' => some '\x0c'
  | 'n' => some '\n'
  | 'r' => some '\r'
  | 't' => some '\t'
  | _ => none

def isBlank (c : Char) : Bool := c == ' ' || c == '\n' || c == '\t' || c == '\r'

/-- How a number goes on with a character, if it does. -/
def NumberPhase.next (phase : NumberPhase) (c : Char) : Option NumberPhase :=
  match phase with
  | .sign => if c = '0' then some .zero else if c.isDigit then some .digits else none
  | .zero => if c = '.' then some .point else if c = 'e' ∨ c = 'E' then some .mark else none
  | .digits =>
    if c.isDigit then some .digits else if c = '.' then some .point
    else if c = 'e' ∨ c = 'E' then some .mark else none
  | .point => if c.isDigit then some .fraction else none
  | .fraction =>
    if c.isDigit then some .fraction else if c = 'e' ∨ c = 'E' then some .mark else none
  | .mark => if c = '+' ∨ c = '-' then some .markSign else if c.isDigit then some .exponent else none
  | .markSign => if c.isDigit then some .exponent else none
  | .exponent => if c.isDigit then some .exponent else none

/-- The number that a text may end at this point. A zero with a sign is no whole number here. -/
def NumberPhase.value? (phase : NumberPhase) (negative : Bool) (magnitude : Nat) : Option Json :=
  match phase with
  | .zero => some (if negative then .other else .int 0)
  | .digits => some (.int (if negative then -(magnitude : Int) else magnitude))
  | .fraction | .exponent => some .other
  | _ => none

/-- Both machines. -/
structure Reader where
  builder : Builder
  mode : Mode

namespace Reader

/-- At the start of a text. -/
def initial : Reader := ⟨.initial, .gap⟩

/-- Hands a token to the builder; the lexer is then between tokens. -/
def emit (b : Builder) (t : Token) : Option Reader := (b.push t).map fun b => ⟨b, .gap⟩

/-- Takes a character between tokens. -/
def start (b : Builder) (c : Char) : Option Reader :=
  if isBlank c then some ⟨b, .gap⟩
  else
    match c with
    | '[' => emit b .openArr
    | ']' => emit b .closeArr
    | '\x7b' => emit b .openObj
    | '\x7d' => emit b .closeObj
    | ':' => emit b .colon
    | ',' => emit b .comma
    | '"' => some ⟨b, .string .empty⟩
    | 't' => some ⟨b, .word ['r', 'u', 'e'] (.bool true)⟩
    | 'f' => some ⟨b, .word ['a', 'l', 's', 'e'] (.bool false)⟩
    | 'n' => some ⟨b, .word ['u', 'l', 'l'] .null⟩
    | '-' => some ⟨b, .number .sign true 0⟩
    | c =>
      (NumberPhase.next .sign c).map fun phase => ⟨b, .number phase false (c.toNat - 0x30)⟩

/-- Takes a character. -/
def step (r : Reader) (c : Char) : Option Reader :=
  let b := r.builder
  match r.mode with
  | .gap => start b c
  | .word [] _ => none
  | .word [last] v => if c = last then emit b (.atom v) else none
  | .word (expected :: rest) v => if c = expected then some ⟨b, .word rest v⟩ else none
  | .number phase negative magnitude =>
    match phase.next c with
    | some phase' =>
      some ⟨b, .number phase' negative
        (if phase' = .digits then magnitude * 10 + (c.toNat - 0x30) else magnitude)⟩
    | none =>
      match phase.value? negative magnitude with
      | some v => (b.push (.atom v)).bind fun b => start b c
      | none => none
  | .string s =>
    if c = '"' then emit b (.string s.finish)
    else if c = '\\' then some ⟨b, .escape s⟩
    else if c.toNat < 0x20 then none
    else some ⟨b, .string (s.push c)⟩
  | .escape s =>
    if c = 'u' then some ⟨b, .code s 3 0⟩
    else (unescape c).map fun c => ⟨b, .string (s.push c)⟩
  | .code s missing value =>
    match hexValue c, missing with
    | none, _ => none
    | some d, 0 => some ⟨b, .string (s.pushCode (value * 16 + d))⟩
    | some d, missing + 1 => some ⟨b, .code s missing (value * 16 + d)⟩

/-- The value, at the end of the text. -/
def finish (r : Reader) : Option Json :=
  let complete : Builder → Option Json := fun b =>
    match b.expect with
    | .finished v => some v
    | _ => none
  match r.mode with
  | .gap => complete r.builder
  | .number phase negative magnitude =>
    (phase.value? negative magnitude).bind fun v => (r.builder.push (.atom v)).bind complete
  | _ => none

end Reader

/-- The value that a list of characters writes. -/
def readChars (cs : List Char) : Option Json := (cs.foldlM Reader.step Reader.initial).bind (·.finish)

/-- The value that a text writes. -/
def read (text : String) : Option Json := readChars text.toList

end Lowering.Json

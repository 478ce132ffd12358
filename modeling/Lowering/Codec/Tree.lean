import Lowering.Codec.Types
import Lowering.Tree.Stmt

/-!
# Bodies in JSON

A statement is a record of its kind and its span; the kind is a variant. Spans may be left out, and
are then the dummy span.
-/

namespace Lowering

open Json (fields? list? option? unitTag? variant?)

/-! ## Small enumerations -/

def BinaryOp.encode : BinaryOp → Json
  | .add => .str "Add"
  | .sub => .str "Sub"
  | .lt => .str "Lt"
  | .eq => .str "Eq"
  | .and => .str "And"
  | .or => .str "Or"

def BinaryOp.decode (depth : Nat) (j : Json) : Option BinaryOp := do
  match ← unitTag? depth j with
  | "Add" => some .add
  | "Sub" => some .sub
  | "Lt" => some .lt
  | "Eq" => some .eq
  | "And" => some .and
  | "Or" => some .or
  | _ => none

def Visibility.encode : Visibility → Json
  | .pub => .str "Public"
  | .prot => .str "Protected"
  | .priv => .str "Private"

def Visibility.decode (depth : Nat) (j : Json) : Option Visibility := do
  match ← unitTag? depth j with
  | "Public" => some .pub
  | "Protected" => some .prot
  | "Private" => some .priv
  | _ => none

def SuspendKind.encode : SuspendKind → Json
  | .yield => .str "Yield"
  | .await => .str "Await"

def SuspendKind.decode (depth : Nat) (j : Json) : Option SuspendKind := do
  match ← unitTag? depth j with
  | "Yield" => some .yield
  | "Await" => some .await
  | _ => none

/-! ## Expressions -/

mutual

def Expr.encode : Expr → Json
  | .null => .str "Null"
  | .bool b => .tagged "Bool" (.bool b)
  | .int n => .tagged "Int" (.int n.toInt)
  | .str s => .tagged "Str" (.str s)
  | .var name => .tagged "Local" (.str name)
  | .assign target value => .variant "Assign" [("target", .str target), ("value", value.encode)]
  | .this => .str "This"
  | .call callee args =>
    .variant "Call" [("callee", .str callee), ("args", .arr (Expr.encodeAll args))]
  | .methodCall receiver method args =>
    .variant "MethodCall" [("receiver", receiver.encode), ("method", .str method),
      ("args", .arr (Expr.encodeAll args))]
  | .not value => .tagged "Not" value.encode
  | .binary op left right =>
    .variant "Binary" [("op", op.encode), ("left", left.encode), ("right", right.encode)]
  | .cast ty value => .variant "Cast" [("ty", ty.encode), ("value", value.encode)]
  | .isType value ty => .variant "Is" [("value", value.encode), ("ty", ty.encode)]
  | .wrap ty value => .variant "Wrap" [("ty", ty.encode), ("value", value.encode)]
  | .wrapNone ty => .tagged "WrapNone" ty.encode
  | .unwrap ty value => .variant "Unwrap" [("ty", ty.encode), ("value", value.encode)]

def Expr.encodeAll : List Expr → List Json
  | [] => []
  | e :: es => e.encode :: Expr.encodeAll es

end

/-- The expressions that are a tag alone. -/
def Expr.ofTag? : String → Option Expr
  | "Null" => some .null
  | "This" => some .this
  | _ => none

def Expr.decode : Nat → Json → Option Expr
  | _, .str tag => Expr.ofTag? tag
  | n + 1, .obj [(tag, c)] =>
    match tag with
    | "Bool" => .bool <$> c.bool?
    | "Int" => .int <$> c.int64?
    | "Str" => .str <$> c.string?
    | "Local" => .var <$> c.string?
    | "Assign" => do
      let f ← fields? n ["target", "value"] c
      let target ← f.required "target" Json.string?
      let value ← f.required "value" (Expr.decode (n - 1))
      return .assign target value
    | "Call" => do
      let f ← fields? n ["callee", "args"] c
      let callee ← f.required "callee" Json.string?
      let args ← f.required "args" (list? (n - 1) (Expr.decode (n - 2)))
      return .call callee args
    | "MethodCall" => do
      let f ← fields? n ["receiver", "method", "args"] c
      let receiver ← f.required "receiver" (Expr.decode (n - 1))
      let method ← f.required "method" Json.string?
      let args ← f.required "args" (list? (n - 1) (Expr.decode (n - 2)))
      return .methodCall receiver method args
    | "Not" => .not <$> Expr.decode n c
    | "Binary" => do
      let f ← fields? n ["op", "left", "right"] c
      let op ← f.required "op" (BinaryOp.decode (n - 1))
      let left ← f.required "left" (Expr.decode (n - 1))
      let right ← f.required "right" (Expr.decode (n - 1))
      return .binary op left right
    | "Cast" => do
      let f ← fields? n ["ty", "value"] c
      let ty ← f.required "ty" (TargetType.decode (n - 1))
      let value ← f.required "value" (Expr.decode (n - 1))
      return .cast ty value
    | "Is" => do
      let f ← fields? n ["value", "ty"] c
      let value ← f.required "value" (Expr.decode (n - 1))
      let ty ← f.required "ty" (TargetType.decode (n - 1))
      return .isType value ty
    | "Wrap" => do
      let f ← fields? n ["ty", "value"] c
      let ty ← f.required "ty" (TargetType.decode (n - 1))
      let value ← f.required "value" (Expr.decode (n - 1))
      return .wrap ty value
    | "WrapNone" => .wrapNone <$> TargetType.decode n c
    | "Unwrap" => do
      let f ← fields? n ["ty", "value"] c
      let ty ← f.required "ty" (TargetType.decode (n - 1))
      let value ← f.required "value" (Expr.decode (n - 1))
      return .unwrap ty value
    | tag => if c.isNull then Expr.ofTag? tag else none
  | _, _ => none
termination_by depth => depth
decreasing_by all_goals omega

/-! ## Statements -/

def Param.encode (p : Param) : Json := .obj [("name", .str p.name), ("ty", p.ty.encode)]

def Param.decode (depth : Nat) (j : Json) : Option Param := do
  let f ← fields? depth ["name", "ty"] j
  let name ← f.required "name" Json.string?
  let ty ← f.required "ty" (TargetType.decode (depth - 1))
  return ⟨name, ty⟩

/-- A statement from its kind. -/
def Json.withSpan (kind : Json) (span : Span) : Json :=
  .obj [("kind", kind), ("span", span.encode)]

mutual

def Stmt.encode : Stmt → Json
  | .block body span => .withSpan (.tagged "Block" body.encode) span
  | .ite test yes no span =>
    .withSpan (.variant "If" [("test", test.encode), ("then_branch", yes.encode),
      ("else_branch", Stmt.encodeOption no)]) span
  | .loop test body span =>
    .withSpan (.variant "While" [("test", test.encode), ("body", body.encode)]) span
  | .attempt body handler cleanup span =>
    .withSpan (.variant "Try" [("body", body.encode), ("catch", Block.encodeOption handler),
      ("finally", Block.encodeOption cleanup)]) span
  | .labeled label body span =>
    .withSpan (.variant "Labeled" [("label", .str label), ("body", body.encode)]) span
  | .goto label span => .withSpan (.tagged "Goto" (.str label)) span
  | .exit span => .withSpan (.str "Break") span
  | .next span => .withSpan (.str "Continue") span
  | .eval value span => .withSpan (.tagged "Expr" value.encode) span
  | .declare name ty init span =>
    .withSpan (.variant "Local" [("name", .str name), ("ty", ty.encode),
      ("init", .ofOption Expr.encode init)]) span
  | .ret value span => .withSpan (.tagged "Return" (.ofOption Expr.encode value)) span
  | .suspend kind value span =>
    .withSpan (.variant "Yield" [("kind", kind.encode),
      ("value", .ofOption Expr.encode value)]) span
  | .raise value span => .withSpan (.tagged "Throw" value.encode) span
  | .method decl span => .withSpan (.tagged "Method" decl.encode) span
  | .switch discriminant cases span =>
    .withSpan (.variant "Switch" [("discriminant", discriminant.encode),
      ("cases", .arr (Case.encodeAll cases))]) span

def Stmt.encodeOption : Option Stmt → Json
  | none => .null
  | some s => s.encode

def Stmt.encodeAll : List Stmt → List Json
  | [] => []
  | s :: ss => s.encode :: Stmt.encodeAll ss

def Block.encode : Block → Json
  | ⟨stmts, span⟩ => .obj [("stmts", .arr (Stmt.encodeAll stmts)), ("span", span.encode)]

def Block.encodeOption : Option Block → Json
  | none => .null
  | some b => b.encode

def Case.encodeAll : List Case → List Json
  | [] => []
  | ⟨test, body⟩ :: cases =>
    .obj [("test", .ofOption Expr.encode test), ("body", body.encode)] :: Case.encodeAll cases

def Method.encode : Method → Json
  | ⟨name, visibility, isStatic, params, ret, body, span⟩ =>
    .obj [("name", .str name), ("visibility", visibility.encode), ("is_static", .bool isStatic),
      ("params", .arr (params.map Param.encode)), ("ret", ret.encode), ("body", body.encode),
      ("span", span.encode)]

end

/-- The statements whose kind is a tag alone. -/
def Stmt.ofTag? (span : Span) : String → Option Stmt
  | "Break" => some (.exit span)
  | "Continue" => some (.next span)
  | _ => none

mutual

def Stmt.decode (depth : Nat) (j : Json) : Option Stmt := do
  let f ← fields? depth ["kind", "span"] j
  let span ← f.defaulted "span" .dummy (Span.decode (depth - 1))
  let kind ← f.get? "kind"
  match depth with
  | 0 => none
  | n + 1 => Stmt.decodeKind n span kind
termination_by (depth, 0)

/-- A statement with the given span from its kind. -/
def Stmt.decodeKind (depth : Nat) (span : Span) (kind : Json) : Option Stmt :=
  match depth, kind with
  | _, .str tag => Stmt.ofTag? span tag
  | n + 1, .obj [(tag, c)] =>
    match tag with
    | "Block" => do return .block (← Block.decode n c) span
    | "If" => do
      let f ← fields? n ["test", "then_branch", "else_branch"] c
      let test ← f.required "test" (Expr.decode (n - 1))
      let yes ← f.required "then_branch" (Stmt.decode (n - 1))
      let no ← f.optional "else_branch" (Stmt.decode (n - 1))
      return .ite test yes no span
    | "While" => do
      let f ← fields? n ["test", "body"] c
      let test ← f.required "test" (Expr.decode (n - 1))
      let body ← f.required "body" (Stmt.decode (n - 1))
      return .loop test body span
    | "Try" => do
      let f ← fields? n ["body", "catch", "finally"] c
      let body ← f.required "body" (Block.decode (n - 1))
      let handler ← f.optional "catch" (Block.decode (n - 1))
      let cleanup ← f.optional "finally" (Block.decode (n - 1))
      return .attempt body handler cleanup span
    | "Labeled" => do
      let f ← fields? n ["label", "body"] c
      let label ← f.required "label" Json.string?
      let body ← f.required "body" (Stmt.decode (n - 1))
      return .labeled label body span
    | "Goto" => do return .goto (← c.string?) span
    | "Expr" => do return .eval (← Expr.decode n c) span
    | "Local" => do
      let f ← fields? n ["name", "ty", "init"] c
      let name ← f.required "name" Json.string?
      let ty ← f.required "ty" (TargetType.decode (n - 1))
      let init ← f.optional "init" (Expr.decode (n - 1))
      return .declare name ty init span
    | "Return" => do return .ret (← option? (Expr.decode n) c) span
    | "Yield" => do
      let f ← fields? n ["kind", "value"] c
      let kind ← f.required "kind" (SuspendKind.decode (n - 1))
      let value ← f.optional "value" (Expr.decode (n - 1))
      return .suspend kind value span
    | "Throw" => do return .raise (← Expr.decode n c) span
    | "Method" => do return .method (← Method.decode n c) span
    | "Switch" => do
      let f ← fields? n ["discriminant", "cases"] c
      let discriminant ← f.required "discriminant" (Expr.decode (n - 1))
      let cases ← f.required "cases" (list? (n - 1) (Case.decode (n - 2)))
      return .switch discriminant cases span
    | tag => if c.isNull then Stmt.ofTag? span tag else none
  | _, _ => none
termination_by (depth, 1)

def Block.decode (depth : Nat) (j : Json) : Option Block := do
  match depth with
  | 0 => none
  | n + 1 => do
    let f ← fields? (n + 1) ["stmts", "span"] j
    let stmts ← f.required "stmts" (list? n (Stmt.decode (n - 1)))
    let span ← f.defaulted "span" .dummy (Span.decode n)
    return ⟨stmts, span⟩
termination_by (depth, 0)

def Case.decode (depth : Nat) (j : Json) : Option Case := do
  match depth with
  | 0 => none
  | n + 1 => do
    let f ← fields? (n + 1) ["test", "body"] j
    let test ← f.optional "test" (Expr.decode n)
    let body ← f.required "body" (Block.decode n)
    return ⟨test, body⟩
termination_by (depth, 0)

def Method.decode (depth : Nat) (j : Json) : Option Method := do
  match depth with
  | 0 => none
  | n + 1 => do
    let f ← fields? (n + 1)
      ["name", "visibility", "is_static", "params", "ret", "body", "span"] j
    let name ← f.required "name" Json.string?
    let visibility ← f.required "visibility" (Visibility.decode n)
    let isStatic ← f.defaulted "is_static" false Json.bool?
    let params ← f.required "params" (list? n (Param.decode (n - 1)))
    let ret ← f.required "ret" (TargetType.decode n)
    let body ← f.required "body" (Block.decode n)
    let span ← f.defaulted "span" .dummy (Span.decode n)
    return ⟨name, visibility, isStatic, params, ret, body, span⟩
termination_by (depth, 0)

end

end Lowering

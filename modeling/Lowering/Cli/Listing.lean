import Lowering.Codec.Tree
import Lowering.Json.Writer
import Lowering.Module
import Lowering.Text.Style

/-!
# Listings of methods

How commands show methods: by their first line alone, or with their bodies as JSON.
-/

namespace Lowering

def Visibility.keyword : Visibility → String
  | .pub => "public"
  | .prot => "protected"
  | .priv => "private"

namespace Method

/-- The first line of a method: `public static int f(Optional<int> x)`. -/
def header (method : Method) : String :=
  method.visibility.keyword ++ (if method.isStatic then " static" else "") ++ " " ++
    method.ret.render ++ " " ++ method.name ++ "(" ++
    ", ".intercalate (method.params.map fun p => p.ty.render ++ " " ++ p.name) ++ ")"

/-- The body of a method after the method's first line. -/
def listing (method : Method) : String :=
  "// " ++ method.header ++ "\n" ++ method.body.encode.pretty ++ "\n"

end Method

/-- What became of a method, in a line. -/
def LoweredMethod.summary (method : LoweredMethod) : String :=
  ((method.form.decls.head?.map Method.header).getD "") ++
  (if method.splits > 0 then " [" ++ toString method.splits ++ " region(s) split]" else "") ++
  (match method.form.primary? with
  | some primary => " [bridged to " ++ primary ++ "]"
  | none => "") ++
  (if method.callsAdapted > 0 then " [" ++ toString method.callsAdapted ++ " call(s) adapted]"
  else "")

/-- A line with a check mark. -/
def Text.checked (colored : Bool) (text : String) : String :=
  paint colored [.green, .bold] "✓" ++ " " ++ text ++ "\n"

end Lowering

import VariantOne.Core.Text

/-!
# Dynamic values at work

What the host's code does with values it was handed as `Any`: it asks whether
they are true, iterates over them, looks a key up and writes them as text.  The
parts of that which no proof looks into, such as how a number is written or how
a JSON text is read, are the interpreter's (`Interpreter`); a text is always its
own text.

So a result here holds for every interpreter, and a concrete run names one.  `orElse` is `value or
default`, `text` is `str(value)` and `toInt` is `int(value)`; the fields of a frame or of a request are
read with these three.
-/

namespace VariantOne

/-- What the interpreter's library computes. -/
structure Interpreter where
  /-- `str(value)`, for a value that is no text. -/
  str : PyValue → String
  /-- `repr(text)` -/
  repr : String → String
  /-- `int(value)`, for a value that is no integer, unless it raises. -/
  int : PyValue → Option Int
  /-- `text.lower()` -/
  lower : String → String
  /-- `json.loads(text)`, if the text is JSON. -/
  loads : String → Option PyValue
  /-- `json.dumps(value, ensure_ascii=False, separators=(",", ":"))` -/
  dumps : PyValue → Except Raised String

/-- A `TypeError`. -/
def typeError (message : String) : Raised := ⟨.typeError, message⟩

/-- `bool(value)` -/
def PyValue.truthy : PyValue → Bool
  | .none => false
  | .bool b => b
  | .int i => i != 0
  | .float x => x.value != 0
  | .str s => s != ""
  | .bytes data => !data.isEmpty
  | .list items | .tuple items => !items.isEmpty
  | .dict entries => !entries.isEmpty
  | .nonFinite _ | .record _ | .foreign _ => true

/-- The items `for item in value` runs over. -/
def PyValue.iter : PyValue → Except Raised (List PyValue)
  | .list items | .tuple items => .ok items
  | .dict entries => .ok ((Dict.keys entries).map .str)
  | .str s => .ok (s.toList.map fun c => .str (String.singleton c))
  | .bytes data => .ok (data.map fun b => .int b.toNat)
  | .none | .bool _ | .int _ | .float _ | .nonFinite _ | .record _ | .foreign _ =>
      .error (typeError "object is not iterable")

/-- `value or default` -/
def orElse (value : Option PyValue) (default : PyValue) : PyValue :=
  match value with
  | some v => if v.truthy then v else default
  | none => default

/-- `str(value)` -/
def Interpreter.text (P : Interpreter) : PyValue → String
  | .str s => s
  | v => P.str v

/-- `str(entries.get(key) or "")` -/
def Interpreter.field (P : Interpreter) (entries : PyDict) (key : String) : String :=
  P.text (orElse (Dict.get? entries key) (.str ""))

/-- `int(value)`, unless it raises. -/
def Interpreter.toInt (P : Interpreter) : PyValue → Option Int
  | .int i => some i
  | .bool b => some (if b then 1 else 0)
  | v => P.int v

/-- The text of a value that is a text. -/
def PyValue.str? : PyValue → Option String
  | .str s => some s
  | _ => Option.none

/-- The entries of a dictionary. -/
def PyValue.dict? : PyValue → Option PyDict
  | .dict entries => some entries
  | _ => Option.none

/-- `isinstance(value, list)` -/
def PyValue.isList : PyValue → Bool
  | .list _ => true
  | _ => false

end VariantOne

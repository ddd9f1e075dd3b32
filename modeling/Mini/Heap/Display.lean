import Mini.Heap
import Mini.Text.Quoted

/-!
# Values as text

Two texts of a value. The display is what a program prints: it shows arrays by
their pairs and says nothing about functions; an array that contains itself has
none. The inspection is unambiguous: it names kinds, quotes strings, and cuts an
array short where it stands inside itself.
-/

namespace Mini.Heap

open Text

/-- A number's text, unless it is too long. -/
def numberText (n : Int) : Except Limit String :=
  if writable n then .ok (integerText n) else .error .digits

/-- The texts of pairs in order, each of key and value joined as given. -/
def pairTexts (join : String → String → String) (text : Value → Except Limit String) :
    Pairs → Except Limit (List String)
  | [] => .ok []
  | (key, value) :: pairs => do
      let k ← text key
      let v ← text value
      return join k v :: (← pairTexts join text pairs)

/-- The display of a value whose arrays nest up to a depth. -/
def displayWithin (h : Heap) (depth : Nat) : Value → Except Limit String
  | .nothing => .ok Kind.nothing.name
  | .number n => numberText n
  | .text s => .ok s
  | .boolean b => .ok (if b then "true" else "false")
  | .function _ => .ok Kind.function.name
  | .array r =>
      match depth with
      | 0 => .error .nesting
      | depth + 1 => do
          let items ← pairTexts (· ++ ":" ++ ·) (displayWithin h depth) (h.read r)
          return "[" ++ ",".intercalate items ++ "]"

/-- The display of a value. -/
def display (h : Heap) (v : Value) : Except Limit String :=
  h.displayWithin h.depth v

/-! ## Inspection -/

/-- A value with its kind, around the text of its content. -/
def labelled (kind : Kind) (content : String) : String :=
  "Value(type='" ++ kind.name ++ "', value=" ++ content ++ ")"

/-- An array around the text of its list of pairs. -/
def arrayText (pairs : String) : String :=
  "AssocArray(" ++ pairs ++ ")"

/-- The inspection of a value inside the arrays of `path`. A path that repeats no
array is no longer than the heap, so the depth only has to bound that. -/
def inspectWithin (h : Heap) (depth : Nat) (path : List Ref) : Value → Except Limit String
  | .nothing => .ok (labelled .nothing "None")
  | .number n => labelled .number <$> numberText n
  | .text s => .ok (labelled .text (quoted s))
  | .boolean b => .ok (labelled .boolean (if b then "True" else "False"))
  | .function _ => .ok (labelled .function "FuncLiteral(...)")
  | .array r =>
      if r ∈ path then .ok (labelled .array (arrayText "[...]"))
      else
        match depth with
        | 0 => .error .nesting
        | depth + 1 => do
            let items ← pairTexts (fun k v => "(" ++ k ++ ", " ++ v ++ ")")
              (inspectWithin h depth (r :: path)) (h.read r)
            return labelled .array (arrayText ("[" ++ ", ".intercalate items ++ "]"))

/-- The inspection of an array. -/
def inspect (h : Heap) (r : Ref) : Except Limit String := do
  let items ← pairTexts (fun k v => "(" ++ k ++ ", " ++ v ++ ")")
    (inspectWithin h h.depth [r]) (h.read r)
  return arrayText ("[" ++ ", ".intercalate items ++ "]")

end Mini.Heap

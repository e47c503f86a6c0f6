import TurtleCurves.Document.Scalar
import TurtleCurves.Settings.Value

namespace TurtleCurves.Document

/-!
# Settings documents

The part of YAML that settings are written in: block and flow lists and maps, scalars with and
without quotes, comments.

* `node?` — a node in block context, where columns tell what belongs together;
* `flowNode?` — a node between brackets;
* `read?` — the tree of a document.

The readers count down a fuel that the length of the document exceeds.
-/

variable {α : Type}

/-- A node that was read. -/
structure Found (α : Type) where
  value : Value α
  /-- It can be the key of an entry: a scalar on one line. -/
  isKey : Bool
  after : Cursor

/-- The cursor at the next thing between brackets; it has a place if a line has ended since the
node. -/
def Found.flowAfter (f : Found α) : Cursor :=
  let c := flowNext f.after.rest
  ⟨f.after.place <|> c.place, c.rest⟩

/-- A scalar as a node. -/
def Token.found (t : Token) (value : List Char → Value α) : Found α :=
  ⟨value t.text, t.isShort && t.after.place.isNone, t.after⟩

/-- A scalar, quoted or not. -/
def scalar? (flow : Bool) (least : Nat) (cs : List Char) : Option (Found α) :=
  match cs with
  | '"' :: _ | '\'' :: _ => (quoted? cs).map fun t => t.found .text
  | _ => (plain? flow least cs).map fun t => t.found .bare

/-- The text behind a colon between brackets, if a colon follows on the same line. -/
def flowValue? (isKey : Bool) (c : Cursor) : Option (List Char) :=
  match c.place, c.rest with
  | none, ':' :: rest => if isKey then some rest else none
  | _, _ => none

/-- The entry is over. -/
def isFlowEnd (c : Cursor) : Bool :=
  match c.rest with
  | d :: _ => d = ',' || d = ']' || d = '\x7d'
  | [] => false

/-! ### Between brackets -/

mutual

/-- A node between brackets. -/
def flowNode? : Nat → Nat → List Char → Option (Found α)
  | 0, _, _ => none
  | fuel + 1, least, cs =>
    match cs with
    | '[' :: rest => do
      let (items, after) ← flowItems? fuel least (flowNext rest)
      return ⟨.list items, false, ⟨none, after⟩⟩
    | '\x7b' :: rest => do
      let (entries, after) ← flowEntries? fuel least (flowNext rest)
      return ⟨.map entries, false, ⟨none, after⟩⟩
    | _ => scalar? true least cs

/-- A node between brackets that may be left out, and what follows it. -/
def flowOptional? : Nat → Nat → Cursor → Option (Value α × Cursor)
  | 0, _, _ => none
  | fuel + 1, least, c =>
    if isFlowEnd c then some (.bare [], c)
    else do
      let v ← flowNode? fuel least c.rest
      return (v.value, flowNext v.after.rest)

/-- The items of a list up to its bracket; one with a colon is a map of its own. -/
def flowItems? : Nat → Nat → Cursor → Option (List (Value α) × List Char)
  | 0, _, _ => none
  | fuel + 1, least, c =>
    match c.rest with
    | ']' :: rest => some ([], rest)
    | cs => do
      let found ← flowNode? fuel least cs
      let c := found.flowAfter
      let (item, c) ← match flowValue? found.isKey c with
        | some rest => do
          let (value, c) ← flowOptional? fuel least (flowNext rest)
          pure (Value.map [(found.value, value)], c)
        | none => pure (found.value, c)
      match c.rest with
      | ']' :: rest => return ([item], rest)
      | ',' :: rest => do
        let (items, rest) ← flowItems? fuel least (flowNext rest)
        return (item :: items, rest)
      | _ => none

/-- The entries of a map up to its bracket; a key without a colon has an empty value. -/
def flowEntries? : Nat → Nat → Cursor → Option (List (Value α × Value α) × List Char)
  | 0, _, _ => none
  | fuel + 1, least, c =>
    match c.rest with
    | '\x7d' :: rest => some ([], rest)
    | cs => do
      let found ← flowNode? fuel least cs
      let c := found.flowAfter
      let (value, c) ← match flowValue? found.isKey c with
        | some rest => flowOptional? fuel least (flowNext rest)
        | none => pure (.bare [], c)
      match c.rest with
      | '\x7d' :: rest => return ([(found.value, value)], rest)
      | ',' :: rest => do
        let (entries, rest) ← flowEntries? fuel least (flowNext rest)
        return ((found.value, value) :: entries, rest)
      | _ => none

end

/-! ### Blocks -/

/-- What follows the colon of an entry, if the cursor is at one on the line of its key. -/
def blockValue? (isKey : Bool) (c : Cursor) : Option Cursor :=
  match c.place, c.rest with
  | none, ':' :: rest => if isKey && isParted rest then some (Cursor.next ⟨none, rest⟩) else none
  | _, _ => none

/-- A flow collection or a scalar in block context, and the cursor at the next thing. -/
def leaf? (fuel least : Nat) (c : Cursor) : Option (Found α) := do
  let found ← match c.rest with
    | '[' :: _ | '\x7b' :: _ => flowNode? fuel least c.rest
    | _ => scalar? false least c.rest
  return { found with after := found.after.next }

mutual

/-- A node in block context, indented to column `least`; under a key, a list may stand one
column less indented than other nodes.  Nothing at all is an empty scalar. -/
def node? : Nat → Nat → Bool → Cursor → Option (Value α × Cursor)
  | 0, _, _, _ => none
  | fuel + 1, least, underKey, c =>
    if c.isEnd || c.isLeftOf least then
      if underKey && c.isEntry && !c.isLeftOf (least - 1) then do
        let (items, c) ← items? fuel (least - 1) c
        return (.list items, c)
      else some (.bare [], c)
    else if c.isEntry then do
      let column ← c.place
      let (items, c) ← items? fuel column c
      return (.list items, c)
    else do
      let found ← leaf? fuel least c
      match blockValue? found.isKey found.after with
      | none => return (found.value, found.after)
      | some after => do
        let column ← c.place
        let (value, c) ← node? fuel (column + 1) true after
        let (entries, c) ← entries? fuel column c
        return (.map ((found.value, value) :: entries), c)

/-- The items of a list whose dashes stand in a column, from the present dash on. -/
def items? : Nat → Nat → Cursor → Option (List (Value α) × Cursor)
  | 0, _, _ => none
  | fuel + 1, column, c => do
    let inside := Cursor.next ⟨some (column + 1), c.rest.drop 1⟩
    let (item, c) ← node? fuel (column + 1) false inside
    if c.isEnd then return ([item], c)
    else
      let place ← c.place
      if column < place then none
      else if place = column ∧ c.isEntry then do
        let (items, c) ← items? fuel column c
        return (item :: items, c)
      else return ([item], c)

/-- The further entries of a map whose keys stand in a column. -/
def entries? : Nat → Nat → Cursor → Option (List (Value α × Value α) × Cursor)
  | 0, _, _ => none
  | fuel + 1, column, c =>
    if c.isEnd then some ([], c)
    else do
      let place ← c.place
      if place < column then return ([], c)
      else if column < place ∨ c.isEntry then none
      else
        let found ← leaf? fuel (column + 1) c
        let after ← blockValue? found.isKey found.after
        let (value, c) ← node? fuel (column + 1) true after
        let (entries, c) ← entries? fuel column c
        return ((found.value, value) :: entries, c)

end

/-! ### Documents -/

/-- The first cursor of a document; a line of three dashes may stand in front. -/
def opening (cs : List Char) : Cursor :=
  let c := Cursor.next ⟨some 0, cs⟩
  match c.place, c.rest with
  | some 0, '-' :: '-' :: '-' :: rest =>
    if isParted rest then Cursor.next ⟨none, rest⟩ else c
  | _, _ => c

/-- The tree of a document. -/
def read? (text : List Char) : Option (Value α) := do
  let cs ← plainText? text
  let (value, c) ← node? (2 * cs.length + 8) 0 false (opening cs)
  if c.isEnd then some value else none

end TurtleCurves.Document

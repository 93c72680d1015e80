/-!
Terms: the values that goals compare. A term is a variable, a constant, a record of named
fields or a list. Equality is decided by structure alone; `Term.beq_eq` says so.
-/
namespace PageLogic

/-- A logic variable. Only its identity matters. -/
structure Var where
  id : Nat
  deriving DecidableEq, Repr

/-- An opaque reference to one node of the page. Two handles are equal exactly when they name
the same text. -/
structure Handle where
  id : String
  deriving DecidableEq, Repr

/-- Width and height of a layout box, in whole pixels. -/
structure Size where
  width : Int
  height : Int
  deriving DecidableEq, Repr

/-- Upper left corner of a layout box, in whole pixels. -/
structure Location where
  x : Int
  y : Int
  deriving DecidableEq, Repr

/-- A value that may still contain variables. -/
inductive Term where
  | var (x : Var)
  /-- Stands for a variable that an answer left unbound; the number is its position in the
  answer. -/
  | placeholder (index : Nat)
  | str (text : String)
  | int (value : Int)
  | bool (value : Bool)
  | element (handle : Handle)
  /-- Named fields, compared position by position. -/
  | record (fields : List (String × Term))
  | list (items : List Term)
  deriving Repr

namespace Term

mutual

/-- Structural equality, as a test. -/
def beq : Term → Term → Bool
  | .var x, .var y => x == y
  | .placeholder m, .placeholder n => m == n
  | .str s, .str t => s == t
  | .int i, .int j => i == j
  | .bool a, .bool b => a == b
  | .element e, .element f => e == f
  | .record fs, .record gs => beqFields fs gs
  | .list ts, .list us => beqAll ts us
  | _, _ => false

/-- The same names and the same values, position by position. -/
def beqFields : List (String × Term) → List (String × Term) → Bool
  | [], [] => true
  | (k, t) :: fs, (l, u) :: gs => k == l && beq t u && beqFields fs gs
  | _, _ => false

/-- The same items, position by position. -/
def beqAll : List Term → List Term → Bool
  | [], [] => true
  | t :: ts, u :: us => beq t u && beqAll ts us
  | _, _ => false

end

mutual

theorem beq_eq : ∀ t u : Term, beq t u = true ↔ t = u
  | .var _, u => by cases u <;> simp [beq]
  | .placeholder _, u => by cases u <;> simp [beq]
  | .str _, u => by cases u <;> simp [beq]
  | .int _, u => by cases u <;> simp [beq]
  | .bool _, u => by cases u <;> simp [beq]
  | .element _, u => by cases u <;> simp [beq]
  | .record fs, .record gs => by simp [beq, beqFields_eq fs gs]
  | .list ts, .list us => by simp [beq, beqAll_eq ts us]
  | .record _, .var _ | .record _, .placeholder _ | .record _, .str _ | .record _, .int _
  | .record _, .bool _ | .record _, .element _ | .record _, .list _ => by simp [beq]
  | .list _, .var _ | .list _, .placeholder _ | .list _, .str _ | .list _, .int _
  | .list _, .bool _ | .list _, .element _ | .list _, .record _ => by simp [beq]

theorem beqFields_eq : ∀ fs gs : List (String × Term), beqFields fs gs = true ↔ fs = gs
  | [], [] | [], _ :: _ | _ :: _, [] => by simp [beqFields]
  | (k, t) :: fs, (l, u) :: gs => by
    simp [beqFields, beq_eq t u, beqFields_eq fs gs, and_assoc]

theorem beqAll_eq : ∀ ts us : List Term, beqAll ts us = true ↔ ts = us
  | [], [] | [], _ :: _ | _ :: _, [] => by simp [beqAll]
  | t :: ts, u :: us => by simp [beqAll, beq_eq t u, beqAll_eq ts us]

end

instance : DecidableEq Term := fun t u =>
  decidable_of_iff (beq t u = true) (beq_eq t u)

/-- The record of a layout box's extent. -/
def size (width height : Term) : Term :=
  .record [("width", width), ("height", height)]

/-- The record of a layout box's corner. -/
def location (x y : Term) : Term :=
  .record [("x", x), ("y", y)]

def ofSize (s : Size) : Term :=
  size (.int s.width) (.int s.height)

def ofLocation (l : Location) : Term :=
  location (.int l.x) (.int l.y)

def isVar : Term → Bool
  | .var _ => true
  | _ => false

def str? : Term → Option String
  | .str s => some s
  | _ => none

def int? : Term → Option Int
  | .int i => some i
  | _ => none

def element? : Term → Option Handle
  | .element e => some e
  | _ => none

/-- The first field of that name, if the term is a record that has one. -/
def field? (name : String) : Term → Option Term
  | .record fields => (fields.find? fun f => f.1 == name).map (·.2)
  | _ => none

mutual

/-- Number of nodes of the term. -/
def weight : Term → Nat
  | .record fields => weightFields fields + 1
  | .list items => weightAll items + 1
  | _ => 1

def weightFields : List (String × Term) → Nat
  | [] => 0
  | (_, t) :: rest => weight t + weightFields rest

def weightAll : List Term → Nat
  | [] => 0
  | t :: rest => weight t + weightAll rest

end

mutual

/-- The variables of the term from left to right, once per occurrence. -/
def vars : Term → List Var
  | .var x => [x]
  | .record fields => varsFields fields
  | .list items => varsAll items
  | _ => []

def varsFields : List (String × Term) → List Var
  | [] => []
  | (_, t) :: rest => vars t ++ varsFields rest

def varsAll : List Term → List Var
  | [] => []
  | t :: rest => vars t ++ varsAll rest

end

mutual

/-- Replaces every variable at once. -/
def replace (f : Var → Term) : Term → Term
  | .var x => f x
  | .record fields => .record (replaceFields f fields)
  | .list items => .list (replaceAll f items)
  | t => t

def replaceFields (f : Var → Term) : List (String × Term) → List (String × Term)
  | [] => []
  | (k, t) :: rest => (k, replace f t) :: replaceFields f rest

def replaceAll (f : Var → Term) : List Term → List Term
  | [] => []
  | t :: rest => replace f t :: replaceAll f rest

end

/-- Numbers the variables of a term 0, 1, 2, … in the order in which they first occur, and puts
the placeholder of its number in place of each. -/
def numbered (t : Term) : Term :=
  t.replace fun x => .placeholder (t.vars.eraseDups.idxOf x)

end Term

end PageLogic

import PageLogic.Substitution
/-!
Following bindings step by step. `walk`, `resolve`, `occurs`, `unify` and `reify` end on every
substitution, since they enter no binding twice on one path and look only so deep. The functions
here go on for as long as there is a binding to follow, and are cut off when they have gone `limit`
steps deep: `none`, or `Attempt.tooDeep`, says that a run has not ended by then. Where bindings lead
nowhere in a circle every run ends, and the two families give the same answers.
-/
namespace PageLogic.Substitution

/-- Follows bindings until a term that is no variable, or an unbound variable. -/
def walk? (s : Substitution) : (limit : Nat) → Term → Option Term
  | 0, _ => none
  | limit + 1, .var x =>
    match s.lookup x with
    | some t => walk? s limit t
    | none => some (.var x)
  | _ + 1, t => some t

/-- Walks the term, and whatever records and lists hold. -/
def resolve? (s : Substitution) : (limit : Nat) → Term → Option Term
  | 0, _ => none
  | limit + 1, t => do
    match ← s.walk? limit t with
    | .record fields =>
      let fields ← fields.mapM fun f => do
        let t ← resolve? s limit f.2
        return (f.1, t)
      return .record fields
    | .list items =>
      let items ← items.mapM (resolve? s limit)
      return .list items
    | t => return t

/-- Whether an unbound variable occurs in what the term stands for. The search stops at the first
occurrence. -/
def occurs? (s : Substitution) (x : Var) : (limit : Nat) → Term → Option Bool
  | 0, _ => none
  | limit + 1, t => do
    match ← s.walk? limit t with
    | .var y => return y == x
    | .record fields => fields.anyM fun f => occurs? s x limit f.2
    | .list items => items.anyM (occurs? s x limit)
    | _ => return false

/-- Binds a variable, unless it occurs in what the term stands for. -/
def extend? (s : Substitution) (limit : Nat) (x : Var) (t : Term) : Attempt :=
  match s.occurs? x limit t with
  | some true => .clash
  | some false => .unified (s.push x t)
  | none => .tooDeep

/-- Unifies two terms. Records and lists of different length clash before anything is bound. -/
def unify? : (limit : Nat) → Substitution → Term → Term → Attempt
  | 0, _, _, _ => .tooDeep
  | limit + 1, s, t, u =>
    match s.walk? limit t, s.walk? limit u with
    | some (.var x), some (.var y) => if x = y then .unified s else s.extend? limit x (.var y)
    | some (.var x), some u => s.extend? limit x u
    | some t, some (.var y) => s.extend? limit y t
    | some (.record fs), some (.record gs) =>
      if fs.length = gs.length then unifyFields (unify? limit) s fs gs else .clash
    | some (.list ts), some (.list us) =>
      if ts.length = us.length then unifyAll (unify? limit) s ts us else .clash
    | some t, some u => if t = u then .unified s else .clash
    | _, _ => .tooDeep

/-- Binds the variables of a term from left to right, each to the placeholder of the next number. -/
def nameVars? : (limit : Nat) → Substitution → Term → Option Substitution
  | 0, _, _ => none
  | limit + 1, names, t => do
    match ← names.walk? limit t with
    | .var x =>
      match names.extend? limit x (.placeholder names.length) with
      | .unified names => return names
      | .clash => return names
      | .tooDeep => none
    | .record fields => fields.foldlM (fun names f => nameVars? limit names f.2) names
    | .list items => items.foldlM (nameVars? limit) names
    | _ => return names

/-- What the term stands for, with the variables that are left named in order. -/
def reify? (s : Substitution) (limit : Nat) (t : Term) : Option Term := do
  let t ← s.resolve? limit t
  let names ← nameVars? limit empty t
  names.resolve? limit t

end PageLogic.Substitution

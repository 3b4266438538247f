import LittleMan.Script.Builtin
import LittleMan.Script.Tree

/-!
# What the names of a check script stand for

A name stands for a variable of a function or comprehension around it, for a global, or for something
built in. A function's names are looked for in all that its script binds, before or after it. At the
top level a name stands for the global only behind the statement that first binds it, so a built-in
name keeps its meaning up to there.

Variables are kept in slots. Each call of a function has slots for the variables of the function and of
the comprehensions in it; comprehensions outside functions have slots of the script itself.
-/

namespace LittleMan.Script

/-- What a name stands for. -/
inductive Variable where
  | global (slot : Nat) (name : String)
  | builtin (builtin : Builtin)
  /-- A variable of the function `up` levels around the name. -/
  | slot (up index : Nat) (name : String)
deriving DecidableEq, Repr

/-- The slots of the names that a function or comprehension binds. -/
structure Region where
  slots : List (String × Nat)
  isFunction : Bool

/-- Where a name is looked for: the functions and comprehensions around it, innermost first, and the
globals of the whole script. -/
structure Scope where
  regions : List Region := []
  globals : List String

/-- How far names have been found: the globals bound up to here, and the slots taken in the function around
this place. -/
structure Progress where
  bound : List String := []
  taken : Nat := 0

/-- Goes through a script and finds what its names stand for. -/
abbrev Resolver := StateM Progress

/-! ### The names that statements bind -/

/-- The names that assigning to an expression binds. -/
def targetNames : Nat → Expr Name → List String
  | depth + 1, .tuple _ items | depth + 1, .list _ items => items.flatMap (targetNames depth)
  | depth + 1, .group _ x => targetNames depth x
  | _, .named v => [v.name]
  | _, _ => []

/-- The names that the clauses of a comprehension bind. -/
def clauseNames (depth : Nat) (clauses : List (Clause Name)) : List String :=
  clauses.flatMap fun clause =>
    match clause with
    | .each target _ => targetNames depth target
    | .onlyIf _ => []

/-- The names that statements bind in the function or script they stand in. -/
def boundNames : Nat → List (Stmt Name) → List String
  | 0, _ => []
  | depth + 1, statements =>
    statements.flatMap fun statement =>
      match statement with
      | .assign target _ | .augment _ target _ => targetNames depth target
      | .branch _ yes no => boundNames depth yes ++ boundNames depth no
      | .forEach target _ body => targetNames depth target ++ boundNames depth body
      | .whileTrue _ body => boundNames depth body
      | .define _ name _ _ _ => [name.name]
      | .load _ names => names.map fun entry => entry.1.name
      | .expression _ | .giveBack .. | .leaveLoop _ | .nextRound _ | .nothing => []

/-- The names of parameters in the order of their slots: those for what is left over come last. -/
def formalNames (parameters : List (Formal Name)) : List String :=
  let ordinary := parameters.filterMap fun parameter =>
    match parameter with
    | .required v | .optional v _ _ => some v.name
    | _ => none
  let rest := parameters.filterMap fun parameter =>
    match parameter with
    | .rest _ (some v) => some v.name
    | _ => none
  let restNamed := parameters.filterMap fun parameter =>
    match parameter with
    | .restNamed _ v => some v.name
    | _ => none
  ordinary ++ rest ++ restNamed

/-- Names without repetitions, each where it stands first, behind those in `read`, which are in reverse. -/
def distinct (read : List String) : List String → List String
  | [] => read.reverse
  | name :: rest => distinct (if read.contains name then read else name :: read) rest

/-- Gives names slots from a number on. -/
def numbered (first : Nat) (names : List String) : List (String × Nat) :=
  (distinct [] names).zipIdx first

/-! ### Sums -/

/-- An expression without the parentheses around it. -/
def bare : Expr Name → Expr Name
  | .group _ x => bare x
  | x => x

/-- The terms of a sum in front of those in `read`. A sum that a sum begins with is part of it, in
parentheses or not; a sum behind a sign is one term. -/
def terms (read : List (Expr Name)) : Expr Name → List (Expr Name)
  | .group _ x => terms read x
  | .binary .add x y => terms (bare y :: read) x
  | x => x :: read

/-- Two terms as one, if both are texts, both lists or both tuples written out. -/
def joined? : Expr Name → Expr Name → Option (Expr Name)
  | .text position a, .text _ b => some (.text position (a ++ b))
  | .list position xs, .list _ ys => some (.list position (xs ++ ys))
  | .tuple position xs, .tuple _ ys => some (.tuple position (xs ++ ys))
  | _, _ => none

/-- Joins a term to the last of those in `read`, which are in reverse, or adds it to them. -/
def joinTerm (read : List (Expr Name)) (x : Expr Name) : List (Expr Name) :=
  match read with
  | last :: earlier =>
    match joined? last x with
    | some both => both :: earlier
    | none => x :: read
  | [] => [x]

/-- The terms of the sum of two expressions. Texts, lists and tuples that are written out next to each
other are one term, so what stands in them is evaluated before anything is added to it. -/
def joinedTerms (x y : Expr Name) : List (Expr Name) :=
  ((terms [bare y] x).foldl joinTerm []).reverse

/-- The sum of terms. -/
def sumOf : List (Expr Variable) → Expr Variable
  | x :: rest => rest.foldl (.binary .add) x
  | [] => .tuple {} []

namespace Resolver

/-- The slot of a name and how many functions up it is, `up` of them having been passed. -/
def slot? (name : String) (up : Nat) : List Region → Option (Nat × Nat)
  | [] => none
  | region :: rest =>
    match region.slots.lookup name with
    | some index => some (up, index)
    | none => slot? name (if region.isFunction then up + 1 else up) rest

/-- The global with a name. -/
def global (scope : Scope) (name : String) : Variable := .global (scope.globals.idxOf name) name

/-- What a name stands for where it is used. -/
def use (scope : Scope) (v : Name) : Resolver Variable := do
  match slot? v.name 0 scope.regions with
  | some (up, index) => return .slot up index v.name
  | none =>
    let bound := (← get).bound
    let globals := if scope.regions.isEmpty then bound else scope.globals
    match globals.contains v.name, Builtin.ofName? v.name with
    | false, some builtin => return .builtin builtin
    | _, _ => return global scope v.name

/-- What a name stands for where it is bound. -/
def bind (scope : Scope) (v : Name) : Resolver Variable := do
  match slot? v.name 0 (scope.regions.take 1) with
  | some (up, index) => return .slot up index v.name
  | none =>
    unless (← get).bound.contains v.name do
      modify fun progress => { progress with bound := v.name :: progress.bound }
    return global scope v.name

/-- Takes slots for the names of a comprehension. -/
def takeSlots (names : List String) : Resolver Region := do
  let slots := numbered (← get).taken names
  modify fun progress => { progress with taken := progress.taken + slots.length }
  return { slots, isFunction := false }

/-- Resolves the inside of a function that binds names, which has slots of its own. -/
def inFunction {α : Type} (scope : Scope) (names : List String) (body : Scope → Resolver α) :
    Resolver α := do
  let taken := (← get).taken
  let slots := numbered 0 names
  modify fun progress => { progress with taken := slots.length }
  let result ← body { scope with regions := { slots, isFunction := true } :: scope.regions }
  modify fun progress => { progress with taken }
  return result

mutual

/-- Resolves an expression. -/
def expr : Nat → Scope → Expr Name → Resolver (Expr Variable)
  | 0, _, _ => return .tuple {} []
  | depth + 1, scope, x =>
    match x with
    | .named v => return .named (← use scope v)
    | .number position n => return .number position n
    | .text position bytes => return .text position bytes
    | .foreign position type => return .foreign position type
    | .list position items => return .list position (← items.mapM (expr depth scope))
    | .tuple position items => return .tuple position (← items.mapM (expr depth scope))
    | .dict position entries =>
      return .dict position (← entries.mapM fun entry => do
        return (← expr depth scope entry.1, ← expr depth scope entry.2))
    | .group _ x => expr depth scope x
    | .unary position op x => return .unary position op (← expr depth scope x)
    | .binary .add x y => return sumOf (← (joinedTerms x y).mapM (expr depth scope))
    | .binary op x y => return .binary op (← expr depth scope x) (← expr depth scope y)
    | .both x y => return .both (← expr depth scope x) (← expr depth scope y)
    | .either x y => return .either (← expr depth scope x) (← expr depth scope y)
    | .choice yes condition no =>
      return .choice (← expr depth scope yes) (← expr depth scope condition) (← expr depth scope no)
    | .index x i => return .index (← expr depth scope x) (← expr depth scope i)
    | .slice x low high step =>
      return .slice (← expr depth scope x) (← low.mapM (expr depth scope))
        (← high.mapM (expr depth scope)) (← step.mapM (expr depth scope))
    | .member x name => return .member (← expr depth scope x) name
    | .call f arguments =>
      return .call (← expr depth scope f) (← arguments.mapM (actual depth scope))
    | .comprehension position body clauses => do
      let (inner, clauses) ← comprehension depth scope clauses
      return .comprehension position (← expr depth inner body) clauses
    | .dictComprehension position key value clauses => do
      let (inner, clauses) ← comprehension depth scope clauses
      return .dictComprehension position (← expr depth inner key) (← expr depth inner value) clauses
    | .lambda position parameters body => do
      let resolved ← parameters.mapM (formal depth scope)
      inFunction scope (formalNames parameters) fun inner => do
        return .lambda position resolved (← expr depth inner body)

/-- Resolves an argument of a call. -/
def actual : Nat → Scope → Actual Name → Resolver (Actual Variable)
  | 0, _, _ => return .plain (.tuple {} [])
  | depth + 1, scope, .plain x => return .plain (← expr depth scope x)
  | depth + 1, scope, .named name x => return .named name (← expr depth scope x)
  | depth + 1, scope, .spread position x => return .spread position (← expr depth scope x)
  | depth + 1, scope, .spreadNamed position x => return .spreadNamed position (← expr depth scope x)

/-- Resolves a parameter. What it falls back to stands outside its function. -/
def formal : Nat → Scope → Formal Name → Resolver (Formal Variable)
  | depth + 1, scope, .optional name position fallback =>
    return .optional name position (← expr depth scope fallback)
  | _, _, .optional name _ _ | _, _, .required name => return .required name
  | _, _, .rest position name => return .rest position name
  | _, _, .restNamed position name => return .restNamed position name

/-- Resolves the clauses of a comprehension, and gives the scope of what stands in it. What its first clause
goes through stands outside it. -/
def comprehension :
    Nat → Scope → List (Clause Name) → Resolver (Scope × List (Clause Variable))
  | depth + 1, scope, .each target source :: rest => do
    let source ← expr depth scope source
    let region ← takeSlots (clauseNames depth (.each target (.tuple {} []) :: rest))
    let inner := { scope with regions := region :: scope.regions }
    let target ← assignable depth inner target
    let rest ← rest.mapM (clause depth inner)
    return (inner, .each target source :: rest)
  | _, scope, _ => return (scope, [])

/-- Resolves a clause of a comprehension behind the first. -/
def clause : Nat → Scope → Clause Name → Resolver (Clause Variable)
  | depth + 1, scope, .each target source => do
    let target ← assignable depth scope target
    return .each target (← expr depth scope source)
  | depth + 1, scope, .onlyIf condition => return .onlyIf (← expr depth scope condition)
  | 0, _, _ => return .onlyIf (.tuple {} [])

/-- Resolves an expression that is assigned to. -/
def assignable : Nat → Scope → Expr Name → Resolver (Expr Variable)
  | 0, _, _ => return .tuple {} []
  | depth + 1, scope, target =>
    match target with
    | .named v => return .named (← bind scope v)
    | .group _ x => assignable depth scope x
    | .tuple position items => return .tuple position (← items.mapM (assignable depth scope))
    | .list position items => return .list position (← items.mapM (assignable depth scope))
    | x => expr depth scope x

end

/-- Resolves statements, in their order. -/
def statements : Nat → Scope → List (Stmt Name) → Resolver (List (Stmt Variable))
  | 0, _, _ => return []
  | depth + 1, scope, body =>
    body.mapM fun statement =>
      match statement with
      | .expression x => return .expression (← expr depth scope x)
      | .assign target value => do
        let value ← expr depth scope value
        return .assign (← assignable depth scope target) value
      | .augment op target value => do
        let value ← expr depth scope value
        return .augment op (← assignable depth scope target) value
      | .branch condition yes no => do
        let condition ← expr depth scope condition
        let yes ← statements depth scope yes
        return .branch condition yes (← statements depth scope no)
      | .forEach target source body => do
        let source ← expr depth scope source
        let target ← assignable depth scope target
        return .forEach target source (← statements depth scope body)
      | .whileTrue condition body => do
        let condition ← expr depth scope condition
        return .whileTrue condition (← statements depth scope body)
      | .define position name title parameters body => do
        let name ← bind scope name
        let resolved ← parameters.mapM (formal depth scope)
        let names := formalNames parameters ++ boundNames depth body
        inFunction scope names fun inner => do
          return .define position name title resolved (← statements depth inner body)
      | .giveBack position value => return .giveBack position (← value.mapM (expr depth scope))
      | .leaveLoop position => return .leaveLoop position
      | .nextRound position => return .nextRound position
      | .nothing => return .nothing
      | .load position names => do
        names.forM fun entry => discard (bind scope entry.1)
        return .load position names

end Resolver

/-- The statements of a script with what its names stand for. The depth bounds how far expressions and
statements nest. -/
def resolve (depth : Nat) (script : List (Stmt Name)) : List (Stmt Variable) :=
  let globals := distinct [] (boundNames depth script)
  ((Resolver.statements depth { globals } script).run {}).1

end LittleMan.Script

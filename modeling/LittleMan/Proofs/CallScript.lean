import LittleMan.Script
import LittleMan.Proofs.Calls

/-!
# Scripts that make calls

A script that makes one call after the other, with arguments that are written out, asks its host for just these
calls. `asked?` reads the calls off the text of such a script, and the lines that it prints between them, without
running it. `makes_of_asked?` says that running the script does what was read off, on any host: the interpreter
asks for it in this order, and the first call that fails stops it.
-/

namespace LittleMan

/-! ### Events one after the other -/

namespace Host

variable {host : Host} {session after : Session} {call : Call} {event : Event}

theorem follow_of_error {fault : CallFault} (h : host.call call session = (.error fault, after))
    (events : List Event) :
    host.follow session (.call call :: events) = { failure := some (.ofCall fault), session := after } := by
  rw [follow, h]

theorem follow_of_ok {returned : Returned} (h : host.call call session = (.ok returned, after))
    (events : List Event) :
    host.follow session (.call call :: events) =
      { host.follow after events with returned := returned :: (host.follow after events).returned } := by
  rw [follow, h]

theorem follow_cons_of_some {failure : Script.Failure} (h : (host.follow session [event]).failure = some failure)
    (events : List Event) : host.follow session (event :: events) = host.follow session [event] := by
  cases event with
  | print line => cases h
  | call call =>
    rcases hcall : host.call call session with ⟨fault | returned, after⟩
    · rw [follow_of_error hcall, follow_of_error hcall]
    · rw [follow_of_ok hcall] at h
      cases h

theorem follow_cons_of_none (h : (host.follow session [event]).failure = none) (events : List Event) :
    (host.follow session (event :: events)).failure =
        (host.follow (host.follow session [event]).session events).failure ∧
      (host.follow session (event :: events)).session =
        (host.follow (host.follow session [event]).session events).session := by
  cases event with
  | print line => exact ⟨rfl, rfl⟩
  | call call =>
    rcases hcall : host.call call session with ⟨fault | returned, after⟩
    · rw [follow_of_error hcall] at h
      cases h
    · rw [follow_of_ok hcall, follow_of_ok hcall]
      exact ⟨rfl, rfl⟩

end Host

namespace Script

/-! ### Steps of the interpreter -/

section Steps

variable {α β : Type} {x : Eval α} {next : α → Eval β} {store after : Store}

theorem bind_of_ok {a : α} (h : x store = .ok a after) : (x >>= next) store = next a after := by
  change EStateM.bind x next store = _
  rw [EStateM.bind, h]

theorem bind_of_error {why : Stopped} (h : x store = .error why after) :
    (x >>= next) store = .error why after := by
  change EStateM.bind x next store = _
  rw [EStateM.bind, h]

end Steps

/-- How an evaluation comes out that asks for events: with a value such as `P` says if all went well, and stopped by
the failure of a call otherwise. -/
inductive Asks {α : Type} (store : Store) (events : List Event) (P : α → Prop) :
    EStateM.Result Stopped Store α → Prop where
  | ended {a : α} {after : Store} (hvalue : P a) (hhost : after.host = store.host)
    (hfailure : (store.host.follow store.session events).failure = none)
    (hsession : after.session = (store.host.follow store.session events).session) :
    Asks store events P (.ok a after)
  | stopped {why : Stopped} {after : Store}
    (hfailure : (store.host.follow store.session events).failure = some (.stopped why))
    (hsession : after.session = (store.host.follow store.session events).session) :
    Asks store events P (.error why after)

section Asks

variable {α β : Type} {x : Eval α} {next : α → Eval β} {store after : Store} {events : List Event} {event : Event}
  {P : α → Prop} {Q : β → Prop}

/-- What comes after an evaluation that did not change the host or the session. -/
theorem Asks.of_ok {a : α} (hx : x store = .ok a after) (hhost : after.host = store.host)
    (hsession : after.session = store.session) (h : Asks after events Q (next a after)) :
    Asks store events Q ((x >>= next) store) := by
  rw [bind_of_ok hx]
  generalize next a after = result at h
  cases h with
  | ended hvalue hhost' hfailure hsession' =>
    rw [hhost, hsession] at hfailure hsession'
    exact .ended hvalue (hhost'.trans hhost) hfailure hsession'
  | stopped hfailure hsession' =>
    rw [hhost, hsession] at hfailure hsession'
    exact .stopped hfailure hsession'

theorem Asks.discard (h : Asks store events P (x store)) :
    Asks store events (fun _ => True) ((Functor.discard x : Eval Unit) store) := by
  change Asks store events _ (EStateM.map (Function.const α ()) x store)
  rw [EStateM.map]
  cases hx : x store with
  | error why after =>
    rw [hx] at h
    obtain _ | ⟨hfailure, hsession⟩ := h
    exact .stopped hfailure hsession
  | ok a after =>
    rw [hx] at h
    obtain ⟨-, hhost, hfailure, hsession⟩ | _ := h
    exact .ended trivial hhost hfailure hsession

/-- What is asked for first, and what comes after it. -/
theorem Asks.bind (h : Asks store [event] P (x store))
    (hnext : ∀ a after, P a → Asks after events Q (next a after)) :
    Asks store (event :: events) Q ((x >>= next) store) := by
  cases hx : x store with
  | error why after =>
    rw [hx] at h
    obtain _ | ⟨hfailure, hsession⟩ := h
    rw [bind_of_error hx]
    refine .stopped ?_ ?_ <;> rwa [Host.follow_cons_of_some hfailure]
  | ok a after =>
    rw [hx] at h
    obtain ⟨hvalue, hhost, hfailure, hsession⟩ | _ := h
    obtain ⟨hfailure', hsession'⟩ := Host.follow_cons_of_none hfailure events
    have hrest := hnext a after hvalue
    rw [bind_of_ok hx]
    generalize next a after = result at hrest
    cases hrest with
    | ended hvalue' hhost' hnone hended =>
      rw [hhost, hsession] at hnone hended
      exact .ended hvalue' (hhost'.trans hhost) (hfailure'.trans hnone) (hended.trans hsession'.symm)
    | stopped hsome hended =>
      rw [hhost, hsession] at hsome hended
      exact .stopped (hfailure'.trans hsome) (hended.trans hsession'.symm)

end Asks

/-! ### Arguments that are written out -/

/-- The item that an expression is in a list. -/
def item? : Expr Variable → Option Item
  | .number _ n => some (.number n)
  | .unary _ .minus (.number _ n) => some (.number (-n))
  | .text _ _ => some (.other "string")
  | .foreign _ type => some (.other type)
  | _ => none

/-- The items that expressions are. -/
def items? : List (Expr Variable) → Option (List Item)
  | [] => some []
  | x :: xs =>
    match item? x, items? xs with
    | some item, some items => some (item :: items)
    | _, _ => none

/-- The argument that an expression is. -/
def argument? : Expr Variable → Option Argument
  | .text _ bytes => some (.text bytes.toList)
  | .list _ items => (items? items).map .list
  | .number _ _ => some (.other "int")
  | .foreign _ type => some (.other type)
  | _ => none

/-- A call with the arguments that are written out behind those it has. -/
def call? (call : Call) : List (Actual Variable) → Option Call
  | [] => some call
  | .plain x :: rest =>
    match argument? x with
    | some argument => call? { call with positional := call.positional ++ [argument] } rest
    | none => none
  | .named name x :: rest =>
    match argument? x with
    | some argument => call? { call with keywords := call.keywords ++ [(utf8 name.name, argument)] } rest
    | none => none
  | _ => none

/-- How deep the interpreter goes into a row of things, when it goes so deep into each of them. -/
def rowDepth {α : Type} (depth : α → Nat) : List α → Nat
  | [] => 1
  | x :: xs => max (depth x) (rowDepth depth xs) + 1

/-- One level down there is as much depth left as is needed there. -/
theorem exists_deeper {needed depth : Nat} (h : needed + 1 ≤ depth) : ∃ deeper, depth = deeper + 1 ∧ needed ≤ deeper :=
  ⟨depth - 1, by omega, by omega⟩

theorem rowDepth_pos {α : Type} {depth : α → Nat} (xs : List α) : 1 ≤ rowDepth depth xs := by
  cases xs <;> simp [rowDepth]

/-- How deep the interpreter goes into an argument that is written out. -/
def argumentDepth : Expr Variable → Nat
  | .list _ items => rowDepth (fun _ => 2) items + 1
  | _ => 1

/-- How deep the interpreter goes into an argument of a call. -/
def actualDepth : Actual Variable → Nat
  | .plain x | .named _ x => argumentDepth x
  | _ => 1

section Arguments

variable {store : Store} {depth frame : Nat} {x : Expr Variable} {item : Item}

theorem expr_of_item? (h : item? x = some item) (hdepth : 2 ≤ depth) :
    ∃ v, Eval.expr depth frame x store = .ok v store ∧ Eval.toItem v = item := by
  obtain ⟨depth, rfl⟩ := Nat.exists_eq_add_of_le' hdepth
  unfold item? at h
  split at h
  · obtain rfl := Option.some.inj h
    exact ⟨.number _, by rw [Eval.expr]; rfl, rfl⟩
  · obtain rfl := Option.some.inj h
    refine ⟨.number _, ?_, rfl⟩
    rw [Eval.expr, Eval.expr]
    rfl
  · obtain rfl := Option.some.inj h
    exact ⟨.text _, by rw [Eval.expr]; rfl, rfl⟩
  · obtain rfl := Option.some.inj h
    exact ⟨.foreign _, by rw [Eval.expr]; rfl, rfl⟩
  · cases h

/-- The items of a list leave the store as it is. -/
theorem exprs_of_items? {xs : List (Expr Variable)} {items : List Item} (h : items? xs = some items)
    (read : Array Value) (hdepth : rowDepth (fun _ => 2) xs ≤ depth) :
    ∃ values : List Value, Eval.exprs depth frame read xs store = .ok (read ++ values) store ∧
      values.map Eval.toItem = items := by
  induction xs generalizing depth read items with
  | nil =>
    obtain ⟨depth, rfl⟩ := Nat.exists_eq_add_of_le' hdepth
    obtain rfl := Option.some.inj h
    refine ⟨[], ?_, rfl⟩
    rw [rowDepth, Eval.exprs]
    simp [pure, EStateM.pure]
  | cons x xs ih =>
    rw [rowDepth] at hdepth
    obtain ⟨depth, rfl, hinside⟩ := exists_deeper hdepth
    rw [items?] at h
    split at h
    · next item items' hitem hitems =>
      obtain rfl := Option.some.inj h
      obtain ⟨v, hv, rfl⟩ := @expr_of_item? store depth frame x item hitem (by omega)
      obtain ⟨values, hvalues, rfl⟩ := ih hitems (read.push v) (by omega : _ ≤ depth)
      refine ⟨v :: values, ?_, rfl⟩
      rw [Eval.exprs, bind_of_ok hv, hvalues]
      simp
    · cases h

/-- The store with more lists in it. -/
def Store.grow (store : Store) (more : Array Sequence) : Store :=
  { store with sequences := store.sequences ++ more }

theorem Store.grow_empty (store : Store) : store.grow #[] = store := by simp [grow]

theorem Store.grow_grow (store : Store) (more rest : Array Sequence) :
    (store.grow more).grow rest = store.grow (more ++ rest) := by simp [grow]

theorem newList_grows (items : Array Value) :
    Eval.newList items store = .ok (.list store.sequences.size) (store.grow #[{ items }]) := by
  rw [Store.grow, ← Array.push_eq_append]
  rfl

theorem argumentDepth_pos (x : Expr Variable) : 1 ≤ argumentDepth x := by
  unfold argumentDepth
  split <;> omega

/-- An argument that is written out at most puts a list into the store. Whatever comes into the store later, the host
sees the argument. -/
theorem expr_of_argument? {argument : Argument} (h : argument? x = some argument) (hdepth : argumentDepth x ≤ depth) :
    ∃ v more, Eval.expr depth frame x store = .ok v (store.grow more) ∧
      ∀ rest, Eval.toArgument (store.grow (more ++ rest)) v = argument := by
  obtain ⟨depth, rfl⟩ := Nat.exists_eq_add_of_le' (Nat.le_trans (argumentDepth_pos x) hdepth)
  unfold argument? at h
  split at h
  · obtain rfl := Option.some.inj h
    refine ⟨.text _, #[], ?_, fun _ => rfl⟩
    rw [Eval.expr, store.grow_empty]
    rfl
  · next position xs =>
    obtain ⟨items, hitems, rfl⟩ := Option.map_eq_some_iff.mp h
    obtain ⟨values, hvalues, rfl⟩ :=
      @exprs_of_items? store depth frame xs items hitems #[] (Nat.le_of_succ_le_succ hdepth)
    refine ⟨.list store.sequences.size, #[{ items := values.toArray }], ?_, ?_⟩
    · rw [Eval.expr, bind_of_ok hvalues, newList_grows]
      simp
    · intro rest
      have hlist : (store.grow (#[{ items := values.toArray }] ++ rest)).items store.sequences.size =
          values.toArray := by
        simp [Store.items, Store.grow, Array.getElem?_append]
      rw [Eval.toArgument, hlist]
  · next position n =>
    obtain rfl := Option.some.inj h
    refine ⟨.number n, #[], ?_, fun _ => rfl⟩
    rw [Eval.expr, store.grow_empty]
    rfl
  · obtain rfl := Option.some.inj h
    refine ⟨.foreign _, #[], ?_, fun _ => rfl⟩
    rw [Eval.expr, store.grow_empty]
    rfl
  · cases h

theorem toCall_push (tool : Tool) (read : Eval.Arguments) (v : Value) :
    Eval.toCall store tool { read with positional := read.positional.push v } =
      { Eval.toCall store tool read with
        positional := (Eval.toCall store tool read).positional ++ [Eval.toArgument store v] } := by
  simp [Eval.toCall]

theorem toCall_push_named (tool : Tool) (read : Eval.Arguments) (name : String) (v : Value) :
    Eval.toCall store tool { read with named := read.named.push (name, v) } =
      { Eval.toCall store tool read with
        keywords := (Eval.toCall store tool read).keywords ++ [(utf8 name, Eval.toArgument store v)] } := by
  simp [Eval.toCall]

/-- The arguments that are written out are those that the host sees, behind those that were read before. -/
theorem actuals_of_call? {actuals : List (Actual Variable)} {call made : Call} (h : call? call actuals = some made)
    {read : Eval.Arguments} (hread : ∀ more, Eval.toCall (store.grow more) call.tool read = call)
    (hdepth : rowDepth actualDepth actuals ≤ depth) :
    ∃ arguments more, Eval.actuals depth frame read actuals store = .ok arguments (store.grow more) ∧
      Eval.toCall (store.grow more) call.tool arguments = made := by
  induction actuals generalizing depth store call read with
  | nil =>
    obtain ⟨depth, rfl⟩ := Nat.exists_eq_add_of_le' hdepth
    obtain rfl := Option.some.inj h
    refine ⟨read, #[], ?_, hread #[]⟩
    rw [rowDepth, Eval.actuals, store.grow_empty]
    rfl
  | cons actual actuals ih =>
    rw [rowDepth] at hdepth
    obtain ⟨depth, rfl, hinside⟩ := exists_deeper hdepth
    have hactual : actualDepth actual ≤ depth := by omega
    have hactuals : rowDepth actualDepth actuals ≤ depth := by omega
    cases actual with
    | plain x =>
      rw [call?] at h
      split at h
      · next argument hargument =>
        obtain ⟨v, more, hv, hshows⟩ := @expr_of_argument? store depth frame x argument hargument hactual
        obtain ⟨arguments, rest, hrest, hcall⟩ := @ih (store.grow more) depth
          { call with positional := call.positional ++ [argument] } h
          { read with positional := read.positional.push v }
          (fun rest => by rw [store.grow_grow, toCall_push, hread, hshows]) hactuals
        rw [store.grow_grow] at hrest hcall
        exact ⟨arguments, more ++ rest, by rw [Eval.actuals, bind_of_ok hv, hrest], hcall⟩
      · cases h
    | named name x =>
      rw [call?] at h
      split at h
      · next argument hargument =>
        obtain ⟨v, more, hv, hshows⟩ := @expr_of_argument? store depth frame x argument hargument hactual
        obtain ⟨arguments, rest, hrest, hcall⟩ := @ih (store.grow more) depth
          { call with keywords := call.keywords ++ [(utf8 name.name, argument)] } h
          { read with named := read.named.push (name.name, v) }
          (fun rest => by rw [store.grow_grow, toCall_push_named, hread, hshows]) hactuals
        rw [store.grow_grow] at hrest hcall
        exact ⟨arguments, more ++ rest, by rw [Eval.actuals, bind_of_ok hv, hrest], hcall⟩
      · cases h
    | spread position x => cases h
    | spreadNamed position x => cases h

end Arguments

/-! ### Statements -/

/-- What an expression asks for that calls a function of the toolkit or prints a text. -/
def Expr.event? : Expr Variable → Option Event
  | .call (.named (.builtin (.tool tool))) actuals => (call? { tool } actuals).map .call
  | .call (.named (.builtin .print)) [.plain (.text _ bytes)] => some (.print bytes.toList)
  | _ => none

/-- What a statement asks for that is such an expression, or keeps what it gives back. -/
def Stmt.event? : Stmt Variable → Option Event
  | .expression x => x.event?
  | .assign (.named (.global _ _)) x => x.event?
  | _ => none

/-- What statements ask for. -/
def events? : List (Stmt Variable) → Option (List Event)
  | [] => some []
  | statement :: statements =>
    match statement.event?, events? statements with
    | some event, some events => some (event :: events)
    | _, _ => none

/-- How deep the interpreter goes into an expression that asks for something. -/
def Expr.depth : Expr Variable → Nat
  | .call _ actuals => rowDepth actualDepth actuals + 1
  | _ => 1

theorem Expr.depth_pos (x : Expr Variable) : 1 ≤ x.depth := by
  unfold depth
  split <;> omega

/-- How deep the interpreter goes into a statement that asks for something. -/
def Stmt.depth : Stmt Variable → Nat
  | .expression x | .assign _ x => x.depth + 1
  | _ => 1

section Statements

variable {store : Store} {depth frame : Nat}

theorem asks_callTool {tool : Tool} {arguments : Eval.Arguments} :
    Asks store [.call (Eval.toCall store tool arguments)] (fun _ => True) (Eval.callTool tool arguments store) := by
  unfold Eval.callTool
  rw [bind_of_ok (rfl : (get : Eval Store) store = .ok store store)]
  rcases hcall : store.host.call (Eval.toCall store tool arguments) store.session with ⟨fault | returned, after⟩
  · refine .stopped ?_ ?_
    · rw [Host.follow_of_error hcall]
      rfl
    · rw [Host.follow_of_error hcall]
  · cases returned with
    | numbers numbers =>
      refine .ended trivial rfl ?_ ?_
      · rw [Host.follow_of_ok hcall]
        rfl
      · rw [Host.follow_of_ok hcall]
        rfl
    | truth b =>
      refine .ended trivial rfl ?_ ?_
      · rw [Host.follow_of_ok hcall]
        rfl
      · rw [Host.follow_of_ok hcall]
        rfl

theorem asks_print {bytes : ByteArray} :
    Asks store [.print bytes.toList] (fun _ => True)
      (Eval.callBuiltin .print { positional := #[.text bytes] } store) := by
  have hline : Text.join (utf8 " ") [bytes.toList] = bytes.toList := by simp [Text.join]
  refine .ended trivial rfl rfl ?_
  change store.host.print (Text.join (utf8 " ") [bytes.toList]) store.session = _
  rw [hline]
  rfl

theorem expr_builtin (builtin : Builtin) (hdepth : 1 ≤ depth) :
    Eval.expr depth frame (.named (.builtin builtin)) store = .ok builtin.value store := by
  obtain ⟨depth, rfl⟩ := Nat.exists_eq_add_of_le' hdepth
  rw [Eval.expr]
  rfl

theorem asks_expr {x : Expr Variable} {event : Event} (h : x.event? = some event) (hdepth : x.depth ≤ depth) :
    Asks store [event] (fun _ => True) (Eval.expr depth frame x store) := by
  unfold Expr.event? at h
  split at h
  · next tool actuals =>
    obtain ⟨call, hcall, rfl⟩ := Option.map_eq_some_iff.mp h
    obtain ⟨depth, rfl, hinside⟩ := exists_deeper hdepth
    have hpos : 1 ≤ depth := Nat.le_trans (rowDepth_pos actuals) hinside
    obtain ⟨arguments, more, harguments, rfl⟩ :=
      @actuals_of_call? store depth frame actuals { tool } call hcall {} (fun _ => rfl) hinside
    have hcallee : Eval.expr depth frame (.named (.builtin (.tool tool))) store =
        .ok (.builtin (.tool tool)) store := expr_builtin (.tool tool) hpos
    rw [Eval.expr, bind_of_ok hcallee]
    refine .of_ok harguments rfl rfl ?_
    obtain ⟨depth, rfl⟩ := Nat.exists_eq_add_of_le' hpos
    rw [Eval.call]
    exact asks_callTool
  · next position bytes =>
    obtain rfl := Option.some.inj h
    have henough : 3 ≤ depth := hdepth
    obtain ⟨depth, rfl⟩ := Nat.exists_eq_add_of_le' henough
    have harguments : Eval.actuals (depth + 2) frame {} [.plain (.text position bytes)] store =
        .ok { positional := #[.text bytes] } store := by
      have htext : Eval.expr (depth + 1) frame (.text position bytes) store = .ok (.text bytes) store := by
        rw [Eval.expr]
        rfl
      rw [Eval.actuals, bind_of_ok htext, Eval.actuals]
      rfl
    have hcallee : Eval.expr (depth + 2) frame (.named (.builtin .print)) store = .ok (.builtin .print) store :=
      expr_builtin .print (Nat.le_add_left 1 _)
    rw [Eval.expr, bind_of_ok hcallee]
    refine .of_ok harguments rfl rfl ?_
    rw [Eval.call]
    exact asks_print
  · cases h

theorem asks_statement {statement : Stmt Variable} {event : Event} (h : statement.event? = some event)
    (hdepth : statement.depth ≤ depth) :
    Asks store [event] (· = Signal.next) (Eval.statement depth frame statement store) := by
  unfold Stmt.event? at h
  split at h
  · next x =>
    obtain ⟨depth, rfl, hinside⟩ := exists_deeper hdepth
    rw [Eval.statement]
    refine (asks_expr h hinside).discard.bind ?_
    intro _ after _
    exact .ended rfl rfl rfl rfl
  · next slot name x =>
    obtain ⟨depth, rfl, hinside⟩ := exists_deeper hdepth
    rw [Eval.statement]
    refine (asks_expr h hinside).bind ?_
    intro v after _
    obtain ⟨depth, rfl⟩ := Nat.exists_eq_add_of_le' (Nat.le_trans x.depth_pos hinside)
    rw [Eval.assign]
    exact .ended rfl rfl rfl rfl
  · cases h

/-- Statements ask for one thing after the other. -/
theorem asks_block {statements : List (Stmt Variable)} {events : List Event} (h : events? statements = some events)
    (hdepth : rowDepth Stmt.depth statements ≤ depth) :
    Asks store events (· = Signal.next) (Eval.block depth frame statements store) := by
  induction statements generalizing depth store events with
  | nil =>
    obtain ⟨depth, rfl⟩ := Nat.exists_eq_add_of_le' hdepth
    obtain rfl := Option.some.inj h
    rw [rowDepth, Eval.block]
    exact .ended rfl rfl rfl rfl
  | cons statement statements ih =>
    rw [rowDepth] at hdepth
    obtain ⟨depth, rfl, hinside⟩ := exists_deeper hdepth
    rw [events?] at h
    split at h
    · next event others hevent hothers =>
      obtain rfl := Option.some.inj h
      rw [Eval.block]
      refine (asks_statement hevent (by omega)).bind ?_
      rintro _ after rfl
      exact ih hothers (by omega)
    · cases h

end Statements

/-! ### Scripts -/

/-- What a script asks for that makes one call after the other. -/
def asked? (script : Text) : Option (List Event) :=
  match prepare script with
  | .ok statements => if rowDepth Stmt.depth statements ≤ patience then events? statements else none
  | .error _ => none

/-- On any host, a script asks for what can be read off it. -/
theorem makes_of_asked? {script : Text} {events : List Event} (h : asked? script = some events) (host : Host) :
    language.Makes host script events := by
  unfold asked? at h
  split at h
  · next statements hprepare =>
    split at h
    · next hdepth =>
      have hasks := @asks_block { host } patience 0 statements events h hdepth
      refine ⟨?_⟩
      change exec host script {} = _
      cases hblock : Eval.block patience 0 statements { host } with
      | ok signal after =>
        rw [hblock] at hasks
        obtain ⟨-, -, hfailure, hsession⟩ | _ := hasks
        simp only [exec, hprepare, hblock, hfailure, hsession]
      | error why after =>
        rw [hblock] at hasks
        obtain _ | ⟨hfailure, hsession⟩ := hasks
        simp only [exec, hprepare, hblock, hfailure, hsession]
    · cases h
  · cases h

end Script

end LittleMan

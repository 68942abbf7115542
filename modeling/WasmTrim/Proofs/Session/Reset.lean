import WasmTrim.Proofs.Session.Storage
import WasmTrim.Proofs.Session.TraceLog

/-!
# Starting over

A session starts over with a whole new instance or keeps its old one whole. `Guest.Starts` says what
making an instance comes to, call by call: the start function works on the host state that is there,
and a call that traps ends it and changes nothing. `Session.Restarted` says what becomes of the
session. Either way the host loses nothing of what it kept before.

The new instance is the one that the data and the start function make against the host state that is
there, and the host state that is left is that of the start function's calls, up to the one that
trapped. After a failure, all that is done with the session later goes as if nothing but the host
state had changed. Registers that had content have some, the trace log holds what it held, the
history goes on from where it was, and the storage has changed only by the calls that the history
tells of. `Session.reset_all_or_nothing` says so, and that starting over once more does the same
again.

## Implementation notes

The relation has no place for what a trapping call of the host leaves behind, although the functions
of the host work in place. That the session agrees with it rests on the order of their steps.
-/

namespace WasmTrim

/-- How what a guest does from a host state on ends: its calls of the host in order, the instance or
the trap at the end, and the host state that is left. -/
inductive Activity.Ends (visible : Bool) :
    Activity → HostState → List HostCall → Except Trap Instance → HostState → Prop where
  /-- It comes to its end. -/
  | done {now : Instance} {results : List Value} {host : HostState} :
      Ends visible (.done now results) host [] (.ok now) host
  /-- It traps of itself. -/
  | trapped {now : Instance} {trap : Trap} {host : HostState} :
      Ends visible (.trapped now trap) host [] (.error trap) host
  /-- It calls the host, and the call traps. -/
  | refused {now : Instance} {callee : ImportedFunction} {arguments : List Value}
      {resume : Instance → List Value → Activity} {host : HostState} {trap : Trap}
      (answer : callee.answer host (if visible then now.memory else none) arguments =
        .error trap) :
      Ends visible (.hostCall now callee arguments resume) host
        [⟨callee, arguments, host, if visible then now.memory else none, .error trap⟩]
        (.error trap) host
  /-- It calls the host and goes on. -/
  | served {now : Instance} {callee : ImportedFunction} {arguments : List Value}
      {resume : Instance → List Value → Activity} {host left : HostState} {reply : HostReply}
      {calls : List HostCall} {outcome : Except Trap Instance}
      (answer : callee.answer host (if visible then now.memory else none) arguments = .ok reply)
      (rest : Ends visible
        (resume (if visible then { now with memory := reply.memory } else now) reply.results)
        reply.host calls outcome left) :
      Ends visible (.hostCall now callee arguments resume) host
        (⟨callee, arguments, host, if visible then now.memory else none, .ok reply⟩ :: calls)
        outcome left

/-- What making an instance of a guest against a host state comes to. The imports must have their
types, then the data is laid into the blank memory, and then the start function runs. -/
inductive Guest.Starts (guest : Guest) (host : HostState) :
    List HostCall → Except Trap Instance → HostState → Prop where
  /-- An import has another type than the host's function. -/
  | mistyped (types : guest.imports.all (ImportedFunction.fits guest.imports) = false) :
      Starts guest host [] (.error .importType) host
  /-- The data does not fit into the memory. -/
  | unlaid (types : guest.imports.all (ImportedFunction.fits guest.imports) = true)
      (data : guest.blank.lay? guest.data = none) :
      Starts guest host [] (.error .outOfBounds) host
  /-- There is no start function. -/
  | idle {now : Instance}
      (types : guest.imports.all (ImportedFunction.fits guest.imports) = true)
      (data : guest.blank.lay? guest.data = some now) (start : guest.start? = none) :
      Starts guest host [] (.ok now) host
  /-- The start function runs. -/
  | run {now : Instance} {start : Instance → Activity} {calls : List HostCall}
      {outcome : Except Trap Instance} {left : HostState}
      (types : guest.imports.all (ImportedFunction.fits guest.imports) = true)
      (data : guest.blank.lay? guest.data = some now) (start_eq : guest.start? = some start)
      (ends : (start now).Ends guest.exportsMemory host calls outcome left) :
      Starts guest host calls outcome left

/-- What becomes of a session that starts over, and the answer: it gets the new instance, or it
keeps its own. The host state is in either case the one that making the instance left. -/
inductive Session.Restarted (session : Session) : Except SessionError Unit → Session → Prop where
  /-- The instance is replaced. -/
  | fresh {calls : List HostCall} {now : Instance} {left : HostState}
      (starts : session.guest.Starts session.host calls (.ok now) left) :
      Restarted session (.ok ())
        ⟨session.guest, now, left, (calls.map .hostCall).reverse ++ session.history⟩
  /-- No new instance can be made. -/
  | kept {calls : List HostCall} {trap : Trap} {left : HostState}
      (starts : session.guest.Starts session.host calls (.error trap) left) :
      Restarted session (.error (.reset trap))
        ⟨session.guest, session.now, left, (calls.map .hostCall).reverse ++ session.history⟩

/-! ### What is carried out -/

/-- An ending tells of these calls before an earlier history, this instance or trap, and this host
state. -/
structure Ending.Tells (ending : Ending) (calls : List HostCall) (outcome : Except Trap Instance)
    (left : HostState) (history : History) : Prop where
  outcome_eq : (ending.outcome.map fun _ => ending.now) = outcome
  host_eq : ending.host = left
  history_eq : ending.history = (calls.map .hostCall).reverse ++ history

section Carried

variable {activity : Activity} {guest : Guest} {visible : Bool} {host left : HostState}
variable {calls : List HostCall} {outcome : Except Trap Instance}

/-- A call before all others stands right before the earlier history. -/
theorem Ending.Tells.cons {ending : Ending} {call : HostCall} {history : History}
    (h : ending.Tells calls outcome left (.hostCall call :: history)) :
    ending.Tells (call :: calls) outcome left history where
  outcome_eq := h.outcome_eq
  host_eq := h.host_eq
  history_eq := by
    rw [h.history_eq, List.map_cons, List.reverse_cons, List.append_assoc, List.singleton_append]

/-- A guest is carried through all that it does. -/
theorem Activity.Ends.perform_tells (h : activity.Ends visible host calls outcome left)
    (history : History) :
    (activity.perform visible host history).Tells calls outcome left history := by
  induction h generalizing history with
  | done => exact ⟨rfl, rfl, rfl⟩
  | trapped => exact ⟨rfl, rfl, rfl⟩
  | refused answer =>
      rw [Activity.perform_hostCall_of_error answer]
      exact ⟨rfl, rfl, rfl⟩
  | served answer _ ih =>
      rw [Activity.perform_hostCall_of_ok answer]
      exact (ih _).cons

/-- Whatever a guest does ends in one of the ways that there are. -/
theorem Activity.exists_ends (activity : Activity) (visible : Bool) (host : HostState) :
    ∃ calls outcome left, activity.Ends visible host calls outcome left := by
  induction activity generalizing host with
  | done now results => exact ⟨_, _, _, .done⟩
  | trapped now trap => exact ⟨_, _, _, .trapped⟩
  | hostCall now callee arguments resume ih =>
      cases hanswer : callee.answer host (if visible then now.memory else none) arguments with
      | error trap => exact ⟨_, _, _, .refused hanswer⟩
      | ok reply =>
          obtain ⟨calls, outcome, left, hrest⟩ := ih _ _ reply.host
          exact ⟨_, _, _, .served hanswer hrest⟩

theorem Guest.Starts.instantiate_tells (h : guest.Starts host calls outcome left)
    (history : History) : (guest.instantiate host history).Tells calls outcome left history := by
  cases h with
  | mistyped types =>
      rw [instantiate, types]
      exact ⟨rfl, rfl, rfl⟩
  | unlaid types data =>
      rw [instantiate, types, data]
      exact ⟨rfl, rfl, rfl⟩
  | idle types data start =>
      rw [instantiate, types, data, start]
      exact ⟨rfl, rfl, rfl⟩
  | run types data start_eq ends =>
      rw [instantiate, types, data, start_eq]
      exact ends.perform_tells history

theorem Guest.exists_starts (guest : Guest) (host : HostState) :
    ∃ calls outcome left, guest.Starts host calls outcome left := by
  cases types : guest.imports.all (ImportedFunction.fits guest.imports) with
  | false => exact ⟨_, _, _, .mistyped types⟩
  | true =>
      cases data : guest.blank.lay? guest.data with
      | none => exact ⟨_, _, _, .unlaid types data⟩
      | some now =>
          cases start_eq : guest.start? with
          | none => exact ⟨_, _, _, .idle types data start_eq⟩
          | some start =>
              obtain ⟨calls, outcome, left, ends⟩ :=
                (start now).exists_ends guest.exportsMemory host
              exact ⟨_, _, _, .run types data start_eq ends⟩

end Carried

namespace Session

variable {session other later : Session} {answer : Except SessionError Unit}

theorem Restarted.reset_eq (h : session.Restarted answer later) :
    session.reset = (answer, later) := by
  cases h with
  | fresh starts =>
      obtain ⟨houtcome, hhost, hhistory⟩ := starts.instantiate_tells session.history
      rw [reset]
      cases hresults : (session.guest.instantiate session.host session.history).outcome with
      | error trap =>
          rw [hresults] at houtcome
          cases houtcome
      | ok results =>
          rw [hresults] at houtcome
          cases houtcome
          simp only [hhost, hhistory]
  | kept starts =>
      obtain ⟨houtcome, hhost, hhistory⟩ := starts.instantiate_tells session.history
      rw [reset]
      cases hresults : (session.guest.instantiate session.host session.history).outcome with
      | error trap =>
          rw [hresults] at houtcome
          cases houtcome
          simp only [hhost, hhistory]
      | ok results =>
          rw [hresults] at houtcome
          cases houtcome

/-- Starting over is what the relation says, and nothing else. -/
theorem reset_eq_iff : session.reset = (answer, later) ↔ session.Restarted answer later := by
  constructor
  · intro h
    obtain ⟨calls, outcome, left, starts⟩ := session.guest.exists_starts session.host
    cases outcome with
    | error trap =>
        have hkept := Restarted.kept starts
        cases h.symm.trans hkept.reset_eq
        exact hkept
    | ok now =>
        have hfresh := Restarted.fresh starts
        cases h.symm.trans hfresh.reset_eq
        exact hfresh
  · exact Restarted.reset_eq

end Session

/-! ### What the host keeps -/

/-- A change that some function of the host makes. -/
def HostState.Changed (before after : HostState) : Prop :=
  ∃ function, HostFunction.Change function before after

section Kept

open Relation (ReflTransGen)

variable {guest : Guest} {activity : Activity} {visible : Bool} {before after host left : HostState}
variable {calls : List HostCall} {outcome : Except Trap Instance}

theorem HostState.Changed.input_eq (h : before.Changed after) : after.input = before.input := by
  obtain ⟨function, hchange⟩ := h
  cases hchange <;> rfl

/-- Registers are set anew but never lost. -/
theorem HostState.Changed.isSome_register? (h : before.Changed after) (id : UInt64)
    (hsome : (before.register? id).isSome) : (after.register? id).isSome := by
  obtain ⟨function, hchange⟩ := h
  cases hchange with
  | register _ _ id' content =>
      rw [HostState.register?, HostState.setRegister, SortedMap.get?_insert]
      split
      · rfl
      · exact hsome
  | trace => exact hsome
  | store => exact hsome
  | unstore => exact hsome

theorem ImportedFunction.changes_of_answer {callee : ImportedFunction} {arguments : List Value}
    {memory : Option GuestMemory} {reply : HostReply}
    (h : callee.answer host memory arguments = .ok reply) :
    ReflTransGen HostState.Changed host reply.host := by
  rw [ImportedFunction.answer] at h
  split at h
  · next offered _ =>
    have hchanges := offered.function.changesBy_serve arguments { host, memory }
    rw [HostFunction.answer] at h
    cases hserve : offered.function.serve arguments { host, memory } with
    | mk outcome left =>
        rw [hserve] at h hchanges
        cases outcome with
        | error trap => cases h
        | ok results =>
            cases h
            exact hchanges.lift id fun _ _ hchange => ⟨offered.function, hchange⟩
  · cases h

/-- What a guest does changes what the host keeps only by the functions of the host. -/
theorem Activity.Ends.changes (h : activity.Ends visible host calls outcome left) :
    ReflTransGen HostState.Changed host left := by
  induction h with
  | done => exact .refl
  | trapped => exact .refl
  | refused => exact .refl
  | served answer _ ih => exact (ImportedFunction.changes_of_answer answer).trans ih

theorem Guest.Starts.changes (h : guest.Starts host calls outcome left) :
    ReflTransGen HostState.Changed host left := by
  cases h with
  | mistyped => exact .refl
  | unlaid => exact .refl
  | idle => exact .refl
  | run _ _ _ ends => exact ends.changes

/-- Functions of the host leave the input alone, and what has content in a register. -/
theorem HostState.kept_of_changes (h : ReflTransGen HostState.Changed before after) :
    after.input = before.input ∧
      ∀ id, (before.register? id).isSome → (after.register? id).isSome := by
  induction h with
  | refl => exact ⟨rfl, fun _ hsome => hsome⟩
  | tail _ hlast ih =>
      refine ⟨hlast.input_eq.trans ih.1, ?_⟩
      intro id hsome
      exact hlast.isSome_register? id (ih.2 id hsome)

end Kept

namespace Session

variable {session other later : Session} {answer : Except SessionError Unit}
variable {α : Type}

theorem Restarted.changes (h : session.Restarted answer later) :
    Relation.ReflTransGen HostState.Changed session.host later.host := by
  cases h with
  | fresh starts => exact starts.changes
  | kept starts => exact starts.changes

/-! ### The instance that stays -/

/-- Something to do with a session that does not depend on its history. -/
def Blind (act : Session → α × Session) : Prop :=
  ∀ (session : Session) (history : History), ∃ later,
    act { session with history } = ((act session).1, { (act session).2 with history := later })

theorem blind_invoke (function : ExportedFunction) (arguments : List Value) :
    Blind (invoke · function arguments) := by
  intro session history
  obtain ⟨calls, outcome, now, left, hcarried, _⟩ :=
    Activity.recorded_perform (function.invoke session.now arguments)
      (session.guest.exportsMemory && !function.isImport) session.host
  simp only [invoke, hcarried]
  exact ⟨_, rfl⟩

theorem blind_run (input : ByteArray) (name : String) : Blind (run · input name) := by
  intro session history
  simp only [run]
  cases session.guest.function? name with
  | none => exact ⟨_, rfl⟩
  | some function =>
      obtain ⟨later, hinvoke⟩ := blind_invoke function []
        { session with host := { session.host with input },
                       history := .run name input :: session.history }
        (.run name input :: history)
      simp only [hinvoke]
      exact ⟨later, rfl⟩

theorem blind_callWord (name : String) (arguments : List UInt32) :
    Blind (callWord · name arguments) := by
  intro session history
  simp only [callWord]
  cases session.guest.function? name with
  | none => exact ⟨_, rfl⟩
  | some function =>
      obtain ⟨later, hinvoke⟩ := blind_invoke function (arguments.map .i32) session history
      simp only [hinvoke]
      exact ⟨later, rfl⟩

theorem blind_reset : Blind reset := by
  intro session history
  obtain ⟨calls, outcome, now, left, hcarried, _⟩ :=
    session.guest.recorded_instantiate session.host
  simp only [reset, hcarried]
  cases outcome with
  | error trap => exact ⟨_, rfl⟩
  | ok results => exact ⟨_, rfl⟩

/-- No operation depends on the history. -/
theorem exists_after_history (session : Session) (history : History) (operation : Operation) :
    ∃ later, ({ session with history } : Session).after operation =
      { session.after operation with history := later } := by
  cases operation with
  | run input name =>
      obtain ⟨later, h⟩ := blind_run input name session history
      exact ⟨later, congrArg Prod.snd h⟩
  | callWord name arguments =>
      obtain ⟨later, h⟩ := blind_callWord name arguments session history
      exact ⟨later, congrArg Prod.snd h⟩
  | reset =>
      obtain ⟨later, h⟩ := blind_reset session history
      exact ⟨later, congrArg Prod.snd h⟩
  | setInput input => exact ⟨_, rfl⟩
  | setRegister id content => exact ⟨_, rfl⟩
  | write address bytes =>
      have hmemory : ({ session with history } : Session).memory = session.memory := rfl
      refine ⟨history, ?_⟩
      simp only [after, write, hmemory]
      cases session.memory with
      | error e => rfl
      | ok memory =>
          simp only [bind, Except.bind]
          split <;> rfl
  | takeTrace => exact ⟨_, rfl⟩
  | note level text => exact ⟨_, rfl⟩

/-- Two sessions that only their histories tell apart: they answer alike whatever is asked. -/
structure Alike (session other : Session) : Prop where
  /-- The instances and the host states are equal. -/
  exists_history : ∃ history, session = { other with history }
  /-- Runs end alike. -/
  run_eq : ∀ input name, (session.run input name).1 = (other.run input name).1
  /-- Calls answer the same word, or fail alike. -/
  callWord_eq : ∀ name arguments,
    (session.callWord name arguments).1 = (other.callWord name arguments).1
  /-- Memory is read alike. -/
  read_eq : ∀ address length, session.read address length = other.read address length
  /-- The next attempt to start over ends alike. -/
  reset_eq : session.reset.1 = other.reset.1

theorem alike_history (session : Session) (history : History) :
    ({ session with history } : Session).Alike session where
  exists_history := ⟨history, rfl⟩
  run_eq input name := by
    obtain ⟨later, h⟩ := blind_run input name session history
    exact (Prod.ext_iff.mp h).1
  callWord_eq name arguments := by
    obtain ⟨later, h⟩ := blind_callWord name arguments session history
    exact (Prod.ext_iff.mp h).1
  read_eq address length := rfl
  reset_eq := by
    obtain ⟨later, h⟩ := blind_reset session history
    exact (Prod.ext_iff.mp h).1

theorem Alike.afterAll (h : session.Alike other) (operations : List Operation) :
    (session.afterAll operations).Alike (other.afterAll operations) := by
  induction operations generalizing session other with
  | nil => exact h
  | cons operation rest ih =>
      obtain ⟨history, rfl⟩ := h.exists_history
      obtain ⟨later, hafter⟩ := other.exists_after_history history operation
      apply ih
      rw [hafter]
      exact alike_history (other.after operation) later

/-- A session that could not start over has the instance that it had. -/
theorem Restarted.eq_of_error {error : SessionError}
    (h : session.Restarted (.error error) later) :
    ∃ history, later = { session with host := later.host, history } := by
  cases h with
  | kept starts => exact ⟨_, rfl⟩

/-- A session that starts over gets a new instance or keeps its old one whole, and its host loses
nothing: input, registers with content, trace log and history stay, and storage changes only by
calls. -/
theorem reset_all_or_nothing (session : Session) :
    (∀ answer later, session.reset = (answer, later) ↔ session.Restarted answer later) ∧
    (∀ error, session.reset.1 = .error error →
      session.reset.2.now = session.now ∧
      ∀ further, (session.reset.2.afterAll further).Alike
        (({ session with host := session.reset.2.host } : Session).afterAll further)) ∧
    session.reset.2.host.input = session.host.input ∧
    (∀ id, (session.host.register? id).isSome → (session.reset.2.host.register? id).isSome) ∧
    (∀ evidence, session.host.trace.Holds evidence →
      session.reset.2.host.trace.Holds evidence) ∧
    (∃ events, session.reset.2.history = events ++ session.history ∧
      session.reset.2.host.stored? = events.foldr Event.changeStorage session.host.stored?) ∧
    ∀ answer later, session.reset.2.reset = (answer, later) ↔
      session.reset.2.Restarted answer later := by
  have hrestarted : session.Restarted session.reset.1 session.reset.2 := reset_eq_iff.mp rfl
  obtain ⟨hinput, hregisters⟩ := HostState.kept_of_changes hrestarted.changes
  obtain ⟨events, hadds⟩ := exists_adds_reset session
  refine ⟨fun _ _ => reset_eq_iff, ?_, hinput, hregisters, ?_, ?_, fun _ _ => reset_eq_iff⟩
  · intro error herror
    rw [herror] at hrestarted
    obtain ⟨history, hlater⟩ := hrestarted.eq_of_error
    refine ⟨by rw [hlater], ?_⟩
    intro further
    apply Alike.afterAll
    have halike := alike_history { session with host := session.reset.2.host } history
    rwa [← hlater] at halike
  · intro evidence hholds
    exact (hadds.holds_iff (by simp) evidence).mpr (Or.inr hholds)
  · exact ⟨events, hadds.history_eq, hadds.leads.stored?_eq⟩

/-- A guest whose start function takes a key out of storage and traps if the key is there, and
otherwise writes it. -/
def alternatingGuest : Guest where
  exportsMemory := true
  blank := { memory := some twoBytes }
  data := [⟨0, ⟨#[1, 2]⟩⟩]
  start? := some fun now =>
    .hostCall now ⟨hostModule, "storage_has_key", HostImport.wide 2 [.i64]⟩ [.i64 1, .i64 0]
      fun now results =>
        if results = [.i64 0] then
          .hostCall now ⟨hostModule, "storage_write", HostImport.wide 5 [.i64]⟩
            [.i64 1, .i64 0, .i64 1, .i64 1, .i64 0] .done
        else
          .hostCall now ⟨hostModule, "storage_remove", HostImport.wide 3 [.i64]⟩
            [.i64 1, .i64 0, .i64 0] fun now _ => .trapped now .unreachable

/-- Its sessions fail to start over every other time, and what was written to their memory in the
meantime stays until they succeed. -/
theorem reset_of_alternatingGuest :
    ∃ session history, Session.start alternatingGuest = (.ok session, history) ∧
      (session.afterAll [.write 0 ⟨#[7]⟩]).reset.1 = .error (.reset .unreachable) ∧
      (session.afterAll [.write 0 ⟨#[7]⟩]).reset.2.now =
        (session.afterAll [.write 0 ⟨#[7]⟩]).now ∧
      (session.afterAll [.write 0 ⟨#[7]⟩]).reset.2.reset.1 = .ok () := by
  obtain ⟨session, history, hstart, hresets⟩ :
      ∃ session history, Session.start alternatingGuest = (.ok session, history) ∧
        ((session.afterAll [.write 0 ⟨#[7]⟩]).reset.1,
          (session.afterAll [.write 0 ⟨#[7]⟩]).reset.2.reset.1) =
            (.error (.reset .unreachable), .ok ()) :=
    exists_of_map_start (by cbv)
  obtain ⟨hfailed, hsucceeded⟩ := Prod.mk.inj hresets
  exact ⟨session, history, hstart, hfailed,
    ((reset_all_or_nothing (session.afterAll [.write 0 ⟨#[7]⟩])).2.1 _ hfailed).1, hsucceeded⟩

end Session

end WasmTrim

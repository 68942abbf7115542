import WasmTrim.Proofs.Host.Serving
import WasmTrim.Session.Account
import WasmTrim.Session.Operation

/-!
# The course of a session

A history accounts for the host state. `History.Leads` says what each event does to it, and every
operation of a session adds to the history events that lead from the state before it to the state
after it, whether it succeeds or fails. So what is to be known of the host state of any session is
proved by one induction over the events.
-/

namespace WasmTrim

namespace HostCall

variable {call : HostCall} {offered : HostImport} {left : HostScope} {results : List Value}

/-- A call goes to the name that its function is offered by, and to no other. -/
theorem calls_iff (h : HostImport.find? call.callee.module call.callee.name = some offered)
    (name : String) : call.calls name = true ↔ offered.name = name := by
  obtain ⟨_, hmodule, hname⟩ := HostImport.mem_all_of_find? h
  simp [calls, hmodule, hname]

/-- A call that returned was served by a function that the host offers. -/
theorem exists_offered_of_served
    (served : call.callee.serve call.arguments { host := call.host, memory := call.memory } =
      (.ok results, left)) :
    ∃ offered, HostImport.find? call.callee.module call.callee.name = some offered ∧
      offered.function.serve call.arguments { host := call.host, memory := call.memory } =
        (.ok results, left) := by
  rw [ImportedFunction.serve] at served
  cases hfind : HostImport.find? call.callee.module call.callee.name with
  | none =>
      rw [hfind] at served
      cases served
  | some offered =>
      rw [hfind] at served
      exact ⟨offered, rfl, served⟩

theorem returned_of_replied (replied : call.reply = left.reply (.ok results)) :
    call.returned = true := by
  rw [returned, replied]
  rfl

theorem not_returned_of_replied {trap : Trap} (replied : call.reply = left.reply (.error trap)) :
    call.returned = false := by
  rw [returned, replied]
  rfl

/-- A call of a name that the host offers is served by the function of that name. -/
theorem serve_of_calls (listed : HostImport) (hlisted : listed ∈ HostImport.all)
    (hcalls : call.calls listed.name = true) (arguments : List Value) :
    call.callee.serve arguments = listed.function.serve arguments := by
  simp only [calls, Bool.and_eq_true, decide_eq_true_eq] at hcalls
  rw [ImportedFunction.serve, hcalls.1, hcalls.2, HostImport.find?_name hlisted]

theorem answer_of_calls (listed : HostImport) (hlisted : listed ∈ HostImport.all)
    (hcalls : call.calls listed.name = true) :
    call.callee.answer call.host call.memory call.arguments =
      listed.function.answer call.host call.memory call.arguments := by
  rw [ImportedFunction.answer_eq, serve_of_calls listed hlisted hcalls]
  rfl

end HostCall

/-- Events, the latest first, that lead from one host state to another. A call of the host changes
the state in the way of the function that is called. -/
inductive History.Leads (first : HostState) : History → HostState → Prop where
  /-- Nothing happened. -/
  | nil : Leads first [] first
  /-- The guest called its host, which worked on the state at that time. -/
  | hostCall {earlier : History} {call : HostCall} {outcome : Except Trap (List Value)}
      {left : HostScope} (before : Leads first earlier call.host)
      (served : call.callee.serve call.arguments { host := call.host, memory := call.memory } =
        (outcome, left))
      (replied : call.reply = left.reply outcome) :
      Leads first (.hostCall call :: earlier) left.host
  /-- A function was run with an input. -/
  | run {earlier : History} {host : HostState} (before : Leads first earlier host)
      (name : String) (input : ByteArray) :
      Leads first (.run name input :: earlier) { host with input }
  /-- An input was set. -/
  | input {earlier : History} {host : HostState} (before : Leads first earlier host)
      (bytes : ByteArray) : Leads first (.input bytes :: earlier) { host with input := bytes }
  /-- A register was set. -/
  | register {earlier : History} {host : HostState} (before : Leads first earlier host)
      (id : UInt64) (content : ByteArray) :
      Leads first (.register id content :: earlier) (host.setRegister id content)
  /-- The trace log was taken. -/
  | traceTaken {earlier : History} {host : HostState} (before : Leads first earlier host) :
      Leads first (.traceTaken :: earlier) { host with trace := {} }
  /-- A line was noted. -/
  | note {earlier : History} {host : HostState} (before : Leads first earlier host)
      (line : Note) : Leads first (.note line :: earlier) host

namespace History

variable {first middle last : HostState} {earlier later : History}

theorem Leads.trans (h : Leads first earlier middle) (h' : Leads middle later last) :
    Leads first (later ++ earlier) last := by
  induction h' with
  | nil => exact h
  | hostCall _ served replied ih => exact ih.hostCall served replied
  | run _ name input ih => exact ih.run name input
  | input _ bytes ih => exact ih.input bytes
  | register _ id content ih => exact ih.register id content
  | traceTaken _ ih => exact ih.traceTaken
  | note _ line ih => exact ih.note line

/-- What lies behind in a history accounts for the state at that time. -/
theorem Leads.exists_of_append (h : Leads first (later ++ earlier) last) :
    ∃ middle, Leads first earlier middle := by
  induction later generalizing last with
  | nil => exact ⟨last, h⟩
  | cons event rest ih => cases h <;> exact ih ‹_›

/-- A call in a history worked on the host state that the events before it led to. -/
theorem Leads.hostCall_of_append {call : HostCall}
    (h : Leads first (later ++ .hostCall call :: earlier) last) :
    Leads first earlier call.host ∧
      call.reply = call.callee.answer call.host call.memory call.arguments := by
  obtain ⟨middle, hmiddle⟩ := h.exists_of_append
  cases hmiddle with
  | hostCall before served replied =>
      refine ⟨before, ?_⟩
      rw [replied, ImportedFunction.answer_eq, served]

theorem leads_notes {α : Type} (host : HostState) (line : α → Note) (xs : List α) :
    Leads host (xs.map fun x => .note (line x)) host := by
  induction xs with
  | nil => exact .nil
  | cons x rest ih => exact ih.note (line x)

end History

/-- What a guest does from a host state on adds its calls of the host to any history, the same ones
to each, and these lead to the host state that it leaves. -/
def Recorded (host : HostState) (carried : History → Ending) : Prop :=
  ∃ (calls : List HostCall) (outcome : Except Trap (List Value)) (now : Instance)
    (left : HostState),
    (∀ history, carried history = ⟨outcome, now, left, calls.map .hostCall ++ history⟩) ∧
    History.Leads host (calls.map .hostCall) left

theorem recorded_of_eq {host : HostState} {carried : History → Ending}
    {outcome : Except Trap (List Value)} {now : Instance}
    (h : ∀ history, carried history = ⟨outcome, now, host, history⟩) : Recorded host carried :=
  ⟨[], outcome, now, host, h, .nil⟩

/-- Every call of the host is recorded, up to the one that traps. -/
theorem Activity.recorded_perform (activity : Activity) (visible : Bool) (host : HostState) :
    Recorded host (activity.perform visible host) := by
  induction activity generalizing host with
  | done now results => exact recorded_of_eq fun _ => rfl
  | trapped now trap => exact recorded_of_eq fun _ => rfl
  | hostCall now callee arguments resume ih =>
      generalize hmemory : (if visible then now.memory else none) = memory
      cases hserve : callee.serve arguments { host, memory } with
      | mk outcome left =>
          let call : HostCall := ⟨callee, arguments, host, memory, left.reply outcome⟩
          let now' := if visible then { now with memory := left.memory } else now
          have hcall : History.Leads host [.hostCall call] left.host := .hostCall .nil hserve rfl
          cases outcome with
          | error trap =>
              -- The call that trapped is recorded too, with what it left.
              refine ⟨[call], .error trap, now', left.host, fun history => ?_, hcall⟩
              simp only [perform, hmemory, hserve]
              rfl
          | ok results =>
              obtain ⟨calls, outcome, last, left', hperform, hleads⟩ := ih now' results left.host
              refine ⟨calls ++ [call], outcome, last, left', fun history => ?_, ?_⟩
              · simp only [perform, hmemory, hserve]
                rw [List.map_append, List.append_assoc]
                exact hperform (.hostCall call :: history)
              · rw [List.map_append]
                exact hcall.trans hleads

theorem Guest.recorded_instantiate (guest : Guest) (host : HostState) :
    Recorded host (guest.instantiate host) := by
  change Recorded host fun history => guest.instantiate host history
  simp only [Guest.instantiate]
  split
  · split
    · exact recorded_of_eq fun _ => rfl
    · split
      · exact recorded_of_eq fun _ => rfl
      · exact Activity.recorded_perform _ _ _
  · exact recorded_of_eq fun _ => rfl

/-- A guest's calls of its host are no taking of the trace log. -/
theorem traceTaken_not_mem_hostCalls (calls : List HostCall) :
    Event.traceTaken ∉ (calls.map .hostCall : History) := by
  intro h
  obtain ⟨call, _, ⟨⟩⟩ := List.mem_map.mp h

/-- They set no register from outside. -/
theorem register_not_mem_hostCalls (calls : List HostCall) (id : UInt64) (content : ByteArray) :
    Event.register id content ∉ (calls.map .hostCall : History) := by
  intro h
  obtain ⟨call, _, ⟨⟩⟩ := List.mem_map.mp h

namespace Session

/-- The events of operations, which lead from the host state before them to that after them. Only
the operations of those names take the trace log or set a register from outside. -/
structure Adds (session later : Session) (operations : List Operation) (events : History) :
    Prop where
  history_eq : later.history = events ++ session.history
  leads : History.Leads session.host events later.host
  takes : .traceTaken ∈ events → .takeTrace ∈ operations
  sets : ∀ id content, .register id content ∈ events → .setRegister id content ∈ operations

variable {session middle later : Session} {operations operations' : List Operation}
variable {events events' : History}

theorem Adds.refl (session : Session) : session.Adds session [] [] where
  history_eq := rfl
  leads := .nil
  takes := nofun
  sets := nofun

theorem Adds.trans (h : session.Adds middle operations events)
    (h' : middle.Adds later operations' events') :
    session.Adds later (operations ++ operations') (events' ++ events) where
  history_eq := by rw [h'.history_eq, h.history_eq, List.append_assoc]
  leads := h.leads.trans h'.leads
  takes := by
    intro htaken
    rcases List.mem_append.mp htaken with hlater | hearlier
    · exact List.mem_append_right _ (h'.takes hlater)
    · exact List.mem_append_left _ (h.takes hearlier)
  sets := by
    intro id content hset
    rcases List.mem_append.mp hset with hlater | hearlier
    · exact List.mem_append_right _ (h'.sets id content hlater)
    · exact List.mem_append_left _ (h.sets id content hearlier)

/-- What a guest does within an operation adds calls of the host only. -/
theorem exists_adds_of_recorded {carried : History → Ending} (operation : Operation)
    (h : Recorded session.host carried)
    (hhost : later.host = (carried session.history).host)
    (hhistory : later.history = (carried session.history).history) :
    ∃ events, session.Adds later [operation] events := by
  obtain ⟨calls, outcome, now, left, hcarried, hleads⟩ := h
  rw [hcarried] at hhost hhistory
  refine ⟨calls.map .hostCall, hhistory, ?_, ?_, ?_⟩
  · rw [hhost]
    exact hleads
  · intro htaken
    exact absurd htaken (traceTaken_not_mem_hostCalls calls)
  · intro id content hset
    exact absurd hset (register_not_mem_hostCalls calls id content)

theorem exists_adds_invoke (session : Session) (function : ExportedFunction)
    (arguments : List Value) (operation : Operation) :
    ∃ events, session.Adds (session.invoke function arguments).2 [operation] events :=
  exists_adds_of_recorded operation (Activity.recorded_perform _ _ _) rfl rfl

theorem exists_adds_run (session : Session) (input : ByteArray) (name : String) :
    ∃ events, session.Adds (session.run input name).2 [.run input name] events := by
  let begun : Session := { session with
    host := { session.host with input }
    history := .run name input :: session.history }
  have hbegun : session.Adds begun [] [.run name input] :=
    ⟨rfl, .run .nil name input, by simp, by simp⟩
  rw [run]
  cases session.guest.function? name with
  | none => exact ⟨_, hbegun.trans ⟨rfl, .nil, by simp, by simp⟩⟩
  | some function =>
      obtain ⟨events, hinvoke⟩ := exists_adds_invoke begun function [] (.run input name)
      exact ⟨_, hbegun.trans hinvoke⟩

theorem exists_adds_callWord (session : Session) (name : String) (arguments : List UInt32) :
    ∃ events,
      session.Adds (session.callWord name arguments).2 [.callWord name arguments] events := by
  rw [callWord]
  cases session.guest.function? name with
  | none => exact ⟨[], rfl, .nil, by simp, by simp⟩
  | some function => exact exists_adds_invoke session function _ _

/-- The host keeps what a start function did, whether or not the fresh instance was made. -/
theorem exists_adds_reset (session : Session) :
    ∃ events, session.Adds session.reset.2 [.reset] events := by
  apply exists_adds_of_recorded .reset (session.guest.recorded_instantiate session.host)
  · rw [reset]
    split <;> rfl
  · rw [reset]
    split <;> rfl

theorem exists_adds_write (session : Session) (address : UInt32) (bytes : ByteArray) :
    ∃ events,
      session.Adds (session.after (.write address bytes)) [.write address bytes] events := by
  refine ⟨[], ?_⟩
  simp only [after, write]
  cases session.memory with
  | error e => exact ⟨rfl, .nil, by simp, by simp⟩
  | ok memory =>
      simp only [bind, Except.bind]
      split
      · exact ⟨rfl, .nil, by simp, by simp⟩
      · exact ⟨rfl, .nil, by simp, by simp⟩

/-- Every operation adds events that account for what it did to the host. -/
theorem exists_adds_after (session : Session) (operation : Operation) :
    ∃ events, session.Adds (session.after operation) [operation] events := by
  cases operation with
  | run input name => exact exists_adds_run session input name
  | callWord name arguments => exact exists_adds_callWord session name arguments
  | reset => exact exists_adds_reset session
  | setInput input => exact ⟨[.input input], rfl, .input .nil input, by simp, by simp⟩
  | setRegister id content =>
      exact ⟨[.register id content], rfl, .register .nil id content, by simp, by simp⟩
  | write address bytes => exact exists_adds_write session address bytes
  | takeTrace => exact ⟨[.traceTaken], rfl, .traceTaken .nil, by simp, by simp⟩
  | note level text => exact ⟨[.note ⟨level, text⟩], rfl, .note .nil _, by simp, by simp⟩

theorem exists_adds_afterAll (session : Session) (operations : List Operation) :
    ∃ events, session.Adds (session.afterAll operations) operations events := by
  induction operations generalizing session with
  | nil => exact ⟨[], .refl session⟩
  | cons operation rest ih =>
      obtain ⟨events, hafter⟩ := exists_adds_after session operation
      obtain ⟨events', hrest⟩ := ih (session.after operation)
      exact ⟨_, hafter.trans hrest⟩

/-- A new session's history accounts for the state that the host is in, from an empty one on. The
trace log was not taken yet, and no register was set from outside. -/
theorem leads_of_start {guest : Guest} {history : History}
    (h : Session.start guest = (.ok session, history)) :
    History.Leads {} session.history session.host ∧ .traceTaken ∉ session.history ∧
      ∀ id content, .register id content ∉ session.history := by
  obtain ⟨calls, outcome, now, left, hcarried, hleads⟩ := guest.recorded_instantiate {}
  simp only [start, hcarried] at h
  cases outcome with
  | error trap => cases h
  | ok results =>
      cases h
      refine ⟨?_, ?_, ?_⟩
      · refine History.Leads.trans ?_ hleads
        rw [Guest.warnings, ← List.map_reverse]
        exact History.leads_notes _ _ _
      · intro htaken
        rcases List.mem_append.mp htaken with hcall | hwarning
        · exact traceTaken_not_mem_hostCalls calls hcall
        · simp [Guest.warnings] at hwarning
      · intro id content hset
        rcases List.mem_append.mp hset with hcall | hwarning
        · exact register_not_mem_hostCalls calls id content hcall
        · simp [Guest.warnings] at hwarning

/-- A memory of two bytes, for guests that need no more. -/
def twoBytes : GuestMemory where
  size := 2

/-- What is found out about a new session tells that there is one. -/
theorem exists_of_map_start {α : Type} {guest : Guest} {f : Session → α} {a : α}
    (h : (Session.start guest).1.toOption.map f = some a) :
    ∃ session history, Session.start guest = (.ok session, history) ∧ f session = a := by
  cases hstart : Session.start guest with
  | mk outcome history =>
      rw [hstart] at h
      cases outcome with
      | error e => cases h
      | ok session => exact ⟨session, history, rfl, Option.some.inj h⟩

/-- At any time of a session its history accounts for the state that the host is in. -/
theorem leads_afterAll {guest : Guest} {history : History}
    (h : Session.start guest = (.ok session, history)) (operations : List Operation) :
    History.Leads {} (session.afterAll operations).history (session.afterAll operations).host := by
  obtain ⟨events, hadds⟩ := exists_adds_afterAll session operations
  rw [hadds.history_eq]
  exact (leads_of_start h).1.trans hadds.leads

end Session

end WasmTrim

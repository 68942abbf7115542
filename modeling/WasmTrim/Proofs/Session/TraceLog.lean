import Mathlib
import WasmTrim.Proofs.Session.Course

/-!
# Evidence over a session

The trace log of a session holds what the calls of the trace hooks report since it was last taken,
no more and no less. No evidence is lost where a call traps, where an instance is replaced, or where
it cannot be replaced: the logs that were taken and the present one together hold all that was ever
reported.

`Session.trace_of_afterAll` says so of all operations that may follow the start of a session,
however they ended. As long as the log is not taken, it only grows.
-/

namespace WasmTrim

namespace TraceLog

variable (log : TraceLog) (evidence : Evidence)

theorem holds_addCall (fingerprint : UInt32) :
    (log.addCall fingerprint).Holds evidence ↔
      evidence = .called fingerprint ∨ log.Holds evidence := by
  cases evidence <;> simp [Holds, addCall, mem_insertSorted]

theorem holds_addFrozen (path : String) :
    (log.addFrozen path).Holds evidence ↔ evidence = .frozenModule path ∨ log.Holds evidence := by
  cases evidence <;> simp [Holds, addFrozen, mem_insertSorted]

theorem holds_addBuiltin (name : String) :
    (log.addBuiltin name).Holds evidence ↔
      evidence = .builtinModule name ∨ log.Holds evidence := by
  cases evidence <;> simp [Holds, addBuiltin, mem_insertSorted]

theorem not_holds_empty : ¬ ({} : TraceLog).Holds evidence := by
  cases evidence <;> simp [Holds]

end TraceLog

namespace HostFunction

open Serving Stateful

variable {function : HostFunction} {arguments results : List Value} {scope left : HostScope}

/-- What a report that returned has added to the trace log. -/
theorem exists_evidence_of_report {hook : TraceHook} (hfunction : function = .report hook)
    (h : function.serve arguments scope = (.ok results, left)) :
    ∃ argument evidence, arguments = [.i32 argument] ∧
      (∀ other, left.host.trace.Holds other ↔ other = evidence ∨ scope.host.trace.Holds other) ∧
      match hook with
      | .functionCall => evidence = .called argument
      | .frozenModuleLoad => ∃ path, evidence = .frozenModule path ∧
        (scope.memory.bind (·.textAt? argument.toNat)).map Utf8.decodeLossy = some path
      | .builtinModuleLoad => ∃ name, evidence = .builtinModule name ∧
        (scope.memory.bind (·.textAt? argument.toNat)).map Utf8.decodeLossy = some name := by
  rw [serve.eq_def] at h
  split at h <;> try cases hfunction
  · cases h
    exact ⟨_, _, rfl, fun other => scope.host.trace.holds_addCall other _, rfl⟩
  · obtain ⟨path, _, hpath, hlast⟩ := bind_eq_ok h
    obtain ⟨rfl, hpath⟩ := eq_of_nameAt hpath
    cases hlast
    exact ⟨_, _, rfl, fun other => TraceLog.holds_addFrozen _ other path, path, rfl, hpath⟩
  · obtain ⟨name, _, hname, hlast⟩ := bind_eq_ok h
    obtain ⟨rfl, hname⟩ := eq_of_nameAt hname
    cases hlast
    exact ⟨_, _, rfl, fun other => TraceLog.holds_addBuiltin _ other name, name, rfl, hname⟩
  · cases h

end HostFunction

namespace HostImport

variable {offered : HostImport}

theorem name_eq_importName_iff (h : offered ∈ all) (hook : TraceHook) :
    offered.name = hook.importName ↔ offered.function = .report hook := by
  revert offered
  cases hook <;> decide

end HostImport

namespace HostCall

variable {call : HostCall} {outcome : Except Trap (List Value)} {left : HostScope}

/-- A call that a hook did not serve reports nothing. -/
theorem evidence?_eq_none (h : ∀ hook : TraceHook, call.calls hook.importName = false) :
    call.evidence? = none := by
  have hcalled : call.calls "trace_function_call" = false := h .functionCall
  have hfrozen : call.calls "trace_frozen_module_load" = false := h .frozenModuleLoad
  have hbuiltin : call.calls "trace_builtin_module_load" = false := h .builtinModuleLoad
  rw [evidence?, hcalled, hfrozen, hbuiltin]
  split <;> rfl

/-- A call goes to one name at most. -/
theorem calls_eq_false {name name' : String} (h : call.calls name = true) (hne : name ≠ name') :
    call.calls name' = false := by
  simp only [calls, Bool.and_eq_true, decide_eq_true_eq] at h
  simp [calls, h.2, hne]

/-- The report of a function that runs never traps. -/
theorem evidence?_eq_none_of_error {trap : Trap}
    (served : call.callee.serve call.arguments { host := call.host, memory := call.memory } =
      (.error trap, left))
    (replied : call.reply = left.reply (.error trap)) : call.evidence? = none := by
  rw [evidence?, not_returned_of_replied replied]
  split
  · next argument harguments =>
      rw [if_neg, if_neg, if_neg]
      · simp
      · simp
      · intro hcalls
        rw [serve_of_calls (HostImport.hook .functionCall) (by decide) hcalls, harguments] at served
        cases served
  · rfl

/-- What a call adds to the trace log is the evidence that can be told from the call. -/
theorem holds_of_served
    (served : call.callee.serve call.arguments { host := call.host, memory := call.memory } =
      (outcome, left))
    (replied : call.reply = left.reply outcome) (evidence : Evidence) :
    left.host.trace.Holds evidence ↔
      call.evidence? = some evidence ∨ call.host.trace.Holds evidence := by
  cases outcome with
  | error trap =>
      have hnone := evidence?_eq_none_of_error served replied
      obtain rfl := (call.callee.atomic_serve call.arguments).eq_of_apply served
      simp [hnone]
  | ok results =>
      have hreturned := returned_of_replied replied
      obtain ⟨offered, hfind, hserve⟩ := exists_offered_of_served served
      have hoffered := (HostImport.mem_all_of_find? hfind).1
      have hcalls := fun hook : TraceHook =>
        (calls_iff hfind _).trans (HostImport.name_eq_importName_iff hoffered hook)
      by_cases hhook : ∃ hook, offered.function = .report hook
      · obtain ⟨hook, hfunction⟩ := hhook
        obtain ⟨argument, added, harguments, hadded, hevidence⟩ :=
          HostFunction.exists_evidence_of_report hfunction hserve
        have hcall := (hcalls hook).mpr hfunction
        have hsome : call.evidence? = some added := by
          rw [evidence?, harguments, hreturned]
          cases hook with
          | functionCall =>
              simp only [TraceHook.importName] at hcall
              simp [hcall, hevidence]
          | frozenModuleLoad =>
              obtain ⟨path, rfl, htext⟩ := hevidence
              simp only [TraceHook.importName] at hcall
              simp [hcall, calls_eq_false hcall, text?, htext]
          | builtinModuleLoad =>
              obtain ⟨name, rfl, htext⟩ := hevidence
              simp only [TraceHook.importName] at hcall
              simp [hcall, calls_eq_false hcall, text?, htext]
        rw [hadded, hsome, Option.some.injEq, eq_comm]
      · -- No other function changes the log, and no call of one tells of evidence.
        have hkeeps : Serving.Keeps HostState.trace (offered.function.serve call.arguments) :=
          offered.function.keeps_serve call.arguments (fun _ _ _ _ => rfl)
            (fun h => absurd h hhook) (fun _ _ _ _ => rfl) (fun _ _ _ => rfl)
        have hleft := hkeeps.eq_of_apply hserve
        have hnone : call.evidence? = none := evidence?_eq_none fun hook =>
          Bool.eq_false_iff.mpr fun h => hhook ⟨hook, (hcalls hook).mp h⟩
        rw [hleft, hnone]
        simp

end HostCall

namespace History

variable {first host : HostState} {history earlier later : History} {evidence : Evidence}

theorem not_reports_nil : ¬ Reports [] evidence := by
  rintro ⟨_, h, _⟩
  cases h

theorem reports_hostCall_iff {call : HostCall} :
    Reports (.hostCall call :: history) evidence ↔
      call.evidence? = some evidence ∨ Reports history evidence := by
  simp [Reports, or_and_right, exists_or]

theorem reports_append_iff :
    Reports (later ++ earlier) evidence ↔ Reports later evidence ∨ Reports earlier evidence := by
  simp [Reports, or_and_right, exists_or]

theorem sinceTaken_eq_self (h : .traceTaken ∉ history) : history.sinceTaken = history := by
  induction history with
  | nil => rfl
  | cons event rest ih =>
      rw [List.mem_cons, not_or] at h
      cases event <;> simp_all [sinceTaken]

/-- Events leave in the trace log what they report, from the last time on that the log was taken,
and if it was not, what it held before. -/
theorem Leads.holds_iff (h : Leads first history host) (evidence : Evidence) :
    host.trace.Holds evidence ↔
      history.sinceTaken.Reports evidence ∨
        .traceTaken ∉ history ∧ first.trace.Holds evidence := by
  induction h with
  | nil => simp [sinceTaken, not_reports_nil]
  | hostCall before served replied ih =>
      rw [HostCall.holds_of_served served replied, ih, sinceTaken, reports_hostCall_iff, or_assoc]
      · simp
      · exact nofun
  | traceTaken _ _ => simp [sinceTaken, not_reports_nil, TraceLog.not_holds_empty]
  | run _ _ _ ih => simpa [sinceTaken, Reports] using ih
  | input _ _ ih => simpa [sinceTaken, Reports] using ih
  | register _ _ _ ih => simpa [sinceTaken, Reports, HostState.setRegister] using ih
  | note _ _ ih => simpa [sinceTaken, Reports] using ih

end History

namespace Session

variable {session later : Session} {operation : Operation} {operations : List Operation}
variable {events : History} {evidence : Evidence}

theorem logsTaken_cons_of_ne (h : operation ≠ .takeTrace) (rest : List Operation) :
    session.logsTaken (operation :: rest) = (session.after operation).logsTaken rest := by
  cases operation <;> first | rfl | exact absurd rfl h

/-- As long as the trace log is not taken, it keeps what it holds and adds what is reported. -/
theorem Adds.holds_iff (h : session.Adds later operations events)
    (htaken : .takeTrace ∉ operations) (evidence : Evidence) :
    later.host.trace.Holds evidence ↔
      events.Reports evidence ∨ session.host.trace.Holds evidence := by
  have hevents : .traceTaken ∉ events := mt h.takes htaken
  rw [h.leads.holds_iff, History.sinceTaken_eq_self hevents]
  simp [hevents]

/-- Operations report nothing that is neither in a log that they take nor in the one that they
leave, and these hold nothing else but what was there before. -/
theorem exists_adds_holds_iff (session : Session) (operations : List Operation)
    (evidence : Evidence) :
    ∃ events, session.Adds (session.afterAll operations) operations events ∧
      ((∃ log ∈ session.logsTaken operations, log.Holds evidence) ∨
          (session.afterAll operations).host.trace.Holds evidence ↔
        events.Reports evidence ∨ session.host.trace.Holds evidence) := by
  induction operations generalizing session with
  | nil => exact ⟨[], .refl session, by simp [logsTaken, History.not_reports_nil]⟩
  | cons operation rest ih =>
      obtain ⟨events', hrest, hiff⟩ := ih (session.after operation)
      by_cases htake : operation = .takeTrace
      · subst htake
        have htaken : session.Adds (session.after .takeTrace) [.takeTrace] [.traceTaken] :=
          ⟨rfl, .traceTaken .nil, by simp, by simp⟩
        refine ⟨_, htaken.trans hrest, ?_⟩
        -- The log that is taken is the one from before, and the next one starts empty.
        have hempty : ¬ (session.after .takeTrace).host.trace.Holds evidence :=
          TraceLog.not_holds_empty evidence
        have hnothing : ¬ History.Reports [.traceTaken] evidence := by simp [History.Reports]
        have hlogs : session.logsTaken (.takeTrace :: rest) =
            session.host.trace :: (session.after .takeTrace).logsTaken rest := rfl
        simp only [hlogs, List.mem_cons, exists_eq_or_imp, afterAll_cons, or_assoc, hiff,
          History.reports_append_iff, hempty, hnothing, or_false]
        exact or_comm
      · obtain ⟨events, hafter⟩ := exists_adds_after session operation
        refine ⟨_, hafter.trans hrest, ?_⟩
        have hnot : Operation.takeTrace ∉ [operation] := by
          rw [List.mem_singleton]
          exact fun h => htake h.symm
        rw [logsTaken_cons_of_ne htake, afterAll_cons, hiff, hafter.holds_iff hnot,
          History.reports_append_iff, or_assoc]

/-- The trace log holds exactly what the trace hooks have reported since it was last taken. The logs
that were taken and the present one hold together what was reported in the whole session. -/
theorem trace_of_afterAll {guest : Guest} {session : Session} {history : History}
    (hstart : Session.start guest = (.ok session, history)) (operations : List Operation)
    (evidence : Evidence) :
    ((session.afterAll operations).host.trace.Holds evidence ↔
      (session.afterAll operations).history.sinceTaken.Reports evidence) ∧
    (∀ further, .takeTrace ∉ further →
      (session.afterAll operations).host.trace.Holds evidence →
        ((session.afterAll operations).afterAll further).host.trace.Holds evidence) ∧
    ((∃ log ∈ session.logsTaken operations, log.Holds evidence) ∨
        (session.afterAll operations).host.trace.Holds evidence ↔
      (session.afterAll operations).history.Reports evidence) := by
  have hempty := TraceLog.not_holds_empty evidence
  refine ⟨?_, ?_, ?_⟩
  · rw [(leads_afterAll hstart operations).holds_iff]
    simp [hempty]
  · intro further htaken hholds
    obtain ⟨events, hadds⟩ := exists_adds_afterAll (session.afterAll operations) further
    exact (hadds.holds_iff htaken evidence).mpr (Or.inr hholds)
  · obtain ⟨events, hadds, hiff⟩ := exists_adds_holds_iff session operations evidence
    obtain ⟨hleads, htaken, _⟩ := leads_of_start hstart
    have hfirst : session.host.trace.Holds evidence ↔ session.history.Reports evidence := by
      rw [hleads.holds_iff, History.sinceTaken_eq_self htaken]
      simp [hempty]
    rw [hiff, hadds.history_eq, History.reports_append_iff, hfirst]

/-- A guest that reports a function when it starts, and that a module is loaded when its export is
called, which then traps. -/
def reportingGuest : Guest where
  exportsMemory := true
  blank := { memory := some twoBytes }
  data := [⟨0, "a".toUTF8⟩]
  start? := some fun now =>
    .hostCall now ⟨hostModule, "trace_function_call", { params := [.i32] }⟩ [.i32 0xFFFFFFFF] .done
  function? := fun _ => some {
    type := {}
    call := fun now _ =>
      .hostCall now ⟨hostModule, "trace_frozen_module_load", { params := [.i32] }⟩ [.i32 0]
        fun now _ => .trapped now .unreachable }

/-- A report before a trap counts since the log was taken, and one of the start function before. -/
theorem trace_of_trapped_run :
    ∃ session history, Session.start reportingGuest = (.ok session, history) ∧
      History.Reports (session.afterAll [.takeTrace, .run .empty "f"]).history.sinceTaken
        (.frozenModule "a") ∧
      ¬ History.Reports (session.afterAll [.takeTrace, .run .empty "f"]).history.sinceTaken
        (.called 0xFFFFFFFF) ∧
      History.Reports (session.afterAll [.takeTrace, .run .empty "f"]).history
        (.called 0xFFFFFFFF) := by
  obtain ⟨session, history, hstart, hlogs⟩ :
      ∃ session history, Session.start reportingGuest = (.ok session, history) ∧
        (session.logsTaken [.takeTrace, .run .empty "f"],
          (session.afterAll [.takeTrace, .run .empty "f"]).host.trace) =
            ([⟨[0xFFFFFFFF], [], []⟩], ⟨[], ["a"], []⟩) :=
    exists_of_map_start (by cbv)
  obtain ⟨htaken, hlast⟩ := Prod.mk.inj hlogs
  have hloaded := trace_of_afterAll hstart [.takeTrace, .run .empty "f"] (.frozenModule "a")
  have hcalled := trace_of_afterAll hstart [.takeTrace, .run .empty "f"] (.called 0xFFFFFFFF)
  rw [htaken] at hcalled
  rw [hlast] at hloaded hcalled
  refine ⟨session, history, hstart, ?_, ?_, ?_⟩
  · exact hloaded.1.mp (List.mem_singleton_self _)
  · exact mt hcalled.1.mpr List.not_mem_nil
  · exact hcalled.2.2.mp (Or.inl ⟨_, List.mem_singleton_self _, List.mem_singleton_self _⟩)

end Session

end WasmTrim

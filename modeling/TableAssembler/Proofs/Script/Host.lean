/-
**A script does not see its host.**

A script can ask its host for a change, but it learns nothing from the answer: it goes on, or it is
stopped.  So if two hosts know the same names, a script takes the same course for both of them, as
far as both let it.

Main definitions:

* `Script.Follows` — an action that takes the course of another as far as its host lets it;
* `Script.Host.Follows` — a host whose state can be told from that of another;
* `Script.Call`, `Script.Host.replay` — a call of a host's function, and some calls in a row;
* `Script.Host.recorder` — a host that accepts every call and notes it.

Main results:

* `Script.Follows.bind`, `Script.Follows.mapM`, `Script.Follows.forIn` — how actions that follow
  each other are put together;
* `Script.Follows.evaluate_succ`, `Script.Follows.execute_succ` — expressions and statements follow
  each other if all that they are made of does;
* `Script.Follows.evaluation` — **evaluations follow each other**;
* `Script.run_follows` — and so do whole scripts;
* `Script.run_eq_replay` — **a script changes its host only by its calls**, which do not depend on
  the host.
-/

import TableAssembler.Proofs.Outcome
import TableAssembler.Script.Run

set_option relaxedAutoImplicit false
set_option autoImplicit false

namespace TableAssembler

namespace Script

variable {σ τ ε δ : Type}

/-! ### Runs that follow each other -/

/-- What an action comes to where its host has got to `reached`: a host that has refused a call has
stopped the run. -/
def resume {α : Type} (reached : Except δ τ) (memory : Memory) (action : Run τ δ α) :
    Except (Stop δ) (α × Machine τ) :=
  match reached with
  | .ok state => action ⟨state, memory⟩
  | .error error => .error (.refused error)

/-- **The second action follows the first**: where the first comes to an end, the second comes to
the same end or is stopped by its host, and `R` goes on to hold between the state of the first host
and where the second host has got to. -/
def Follows {α : Type} (R : σ → Except δ τ → Prop) (first : Run σ ε α) (second : Run τ δ α) :
    Prop :=
  ∀ state memory reached, R state reached → ∀ a state' memory',
    first ⟨state, memory⟩ = .ok (a, ⟨state', memory'⟩) →
      ∃ reached', R state' reached' ∧
        resume reached memory second = resume reached' memory' (pure a)

/-- A host knows the same names as another, and `R` is kept by the calls that the other accepts. -/
structure Host.Follows (R : σ → Except δ τ → Prop) (host : Host σ ε) (other : Host τ δ) : Prop where
  texts : host.texts = other.texts
  functions : host.functions = other.functions
  call : ∀ {state reached function positional named state'}, R state reached →
    host.call state function positional named = .ok state' →
      R state' (reached >>= fun state => other.call state function positional named)

namespace Follows

variable {α β : Type} {R : σ → Except δ τ → Prop}

theorem resume_bind (reached : Except δ τ) (memory : Memory) (action : Run τ δ α)
    (next : α → Run τ δ β) :
    resume reached memory (action >>= next) =
      (resume reached memory action >>= fun result => next result.1 result.2) := by
  cases reached <;> rfl

theorem resume_pure_bind (reached : Except δ τ) (memory : Memory) (a : α)
    (next : α → Run τ δ β) :
    (resume reached memory (pure a) >>= fun result => next result.1 result.2) =
      resume reached memory (next a) := by
  cases reached <;> rfl

theorem pure (a : α) : Follows R (Pure.pure a : Run σ ε α) (Pure.pure a) := by
  intro state memory reached hreached b state' memory' h
  cases h
  exact ⟨reached, hreached, rfl⟩

theorem bind {first : Run σ ε α} {second : Run τ δ α} {next : α → Run σ ε β}
    {next' : α → Run τ δ β} (h : Follows R first second)
    (hnext : ∀ a, Follows R (next a) (next' a)) :
    Follows R (first >>= next) (second >>= next') := by
  intro state memory reached hreached b state₂ memory₂ hrun
  obtain ⟨⟨a, state₁, memory₁⟩, hfirst, hrest⟩ := Outcome.bind_eq_ok.1 hrun
  obtain ⟨reached₁, hreached₁, heq₁⟩ := h state memory reached hreached a state₁ memory₁ hfirst
  obtain ⟨reached₂, hreached₂, heq₂⟩ := hnext a state₁ memory₁ reached₁ hreached₁ b _ _ hrest
  refine ⟨reached₂, hreached₂, ?_⟩
  rw [resume_bind, heq₁, resume_pure_bind, heq₂]

/-- A step that the host has no part in is the same for every host. -/
theorem step (step : Step α) : Follows R (liftM step : Run σ ε α) (liftM step) := by
  intro state memory reached hreached a state' memory' h
  change Step.beside step ⟨state, memory⟩ = _ at h
  cases hstep : step memory with
  | none => simp only [Step.beside, hstep, reduceCtorEq] at h
  | some result =>
      simp only [Step.beside, hstep, Except.ok.injEq, Prod.mk.injEq, Machine.mk.injEq] at h
      obtain ⟨rfl, rfl, rfl⟩ := h
      refine ⟨reached, hreached, ?_⟩
      cases reached with
      | error error => rfl
      | ok other =>
          change Step.beside step ⟨other, memory⟩ = _
          simp only [Step.beside, hstep]
          rfl

theorem ite {condition : Prop} [Decidable condition] {first first' : Run σ ε α}
    {second second' : Run τ δ α} (hthen : Follows R first second)
    (helse : Follows R first' second') :
    Follows R (if condition then first else first') (if condition then second else second') := by
  split
  · exact hthen
  · exact helse

/-- Actions on the elements of a list follow each other if each does. -/
theorem mapM {f : α → Run σ ε β} {g : α → Run τ δ β} (h : ∀ a, Follows R (f a) (g a))
    (items : List α) : Follows R (items.mapM f) (items.mapM g) := by
  induction items with
  | nil =>
      rw [List.mapM_nil, List.mapM_nil]
      exact pure _
  | cons item items ih =>
      rw [List.mapM_cons, List.mapM_cons]
      exact bind (h item) fun _ => bind ih fun _ => pure _

/-- Loops through a list follow each other if their bodies do. -/
theorem forIn {f : α → β → Run σ ε (ForInStep β)} {g : α → β → Run τ δ (ForInStep β)}
    (h : ∀ a b, Follows R (f a b) (g a b)) (items : List α) (start : β) :
    Follows R (ForIn.forIn items start f) (ForIn.forIn items start g) := by
  induction items generalizing start with
  | nil =>
      rw [List.forIn_nil, List.forIn_nil]
      exact pure _
  | cons item items ih =>
      rw [List.forIn_cons, List.forIn_cons]
      refine bind (h item start) fun result => ?_
      cases result with
      | done => exact pure _
      | yield next => exact ih next

/-! ### Blocks and loops -/

theorem whileReading (value : Value) {first : Run σ ε α} {second : Run τ δ α}
    (h : Follows R first second) :
    Follows R (Script.whileReading value first) (Script.whileReading value second) :=
  bind (step _) fun _ => bind h fun _ => bind (step _) fun _ => pure _

theorem inSequence {run : Statement → Run σ ε Flow} {run' : Statement → Run τ δ Flow}
    (h : ∀ statement, Follows R (run statement) (run' statement)) (statements : List Statement) :
    Follows R (Script.inSequence run statements) (Script.inSequence run' statements) := by
  induction statements with
  | nil => exact pure _
  | cons statement statements ih =>
      refine bind (h statement) fun flow => ?_
      cases flow with
      | next => exact ih
      | stopLoop | nextTurn | result => exact pure _

theorem inTurn {body : Value → Run σ ε Flow} {body' : Value → Run τ δ Flow}
    (h : ∀ value, Follows R (body value) (body' value)) (count : Nat) (series : Series) :
    Follows R (Script.inTurn body count series) (Script.inTurn body' count series) := by
  induction count generalizing series with
  | zero => exact pure _
  | succ count ih =>
      simp only [Script.inTurn]
      cases series.next? with
      | none => exact pure _
      | some next =>
          refine bind (h next.1) fun flow => ?_
          cases flow with
          | next | nextTurn => exact ih _
          | stopLoop | result => exact pure _

theorem goThrough (value : Value) {body : Value → Run σ ε Flow} {body' : Value → Run τ δ Flow}
    (h : ∀ value, Follows R (body value) (body' value)) :
    Follows R (Script.goThrough value body) (Script.goThrough value body') :=
  bind (step _) fun _ => whileReading value (inTurn h _ _)

/-! ### Calls of functions that call back -/

section Callback

variable {apply : Value → Arguments → Run σ ε Value} {apply' : Value → Arguments → Run τ δ Value}
  (h : ∀ function arguments, Follows R (apply function arguments) (apply' function arguments))

include h

theorem keyOf (function : Option Value) (value : Value) :
    Follows R (Script.keyOf apply function value) (Script.keyOf apply' function value) := by
  cases function with
  | none => exact pure _
  | some function => exact h _ _

theorem extreme (direction : Ordering) (function : Option Value) (best : Value × Value)
    (values : List Value) :
    Follows R (Script.extreme direction (Script.keyOf apply function) best values)
      (Script.extreme direction (Script.keyOf apply' function) best values) := by
  induction values generalizing best with
  | nil => exact pure _
  | cons value values ih =>
      exact bind (keyOf h function value) fun _ => bind (step _) fun _ => ih _

theorem extremeOf (direction : Ordering) (function : Option Value) (value : Value) :
    Follows R (Script.extremeOf apply direction function value)
      (Script.extremeOf apply' direction function value) := by
  refine whileReading value (bind (step _) fun items => ?_)
  cases items with
  | nil => exact step _
  | cons first rest => exact bind (keyOf h function first) fun _ => extreme h _ _ _ _

theorem sortedOf (direction : Ordering) (function : Option Value) (value : Value) :
    Follows R (Script.sortedOf apply direction function value)
      (Script.sortedOf apply' direction function value) := by
  refine bind (whileReading value (bind (step _) fun items => ?_)) fun _ =>
    bind (step _) fun _ => pure _
  exact mapM (fun item => bind (keyOf h function item) fun _ => pure _) items

theorem callUniversal (name : String) (arguments : Arguments) :
    Follows R (Script.callUniversal apply name arguments)
      (Script.callUniversal apply' name arguments) := by
  unfold Script.callUniversal
  split
  · exact bind (step _) fun _ => bind (step _) fun _ => bind (step _) fun _ => extremeOf h _ _ _
  · exact bind (step _) fun _ => bind (step _) fun _ => bind (step _) fun _ => extremeOf h _ _ _
  · refine bind (step _) fun values => ?_
    split
    · exact bind (step _) fun _ => bind (step _) fun _ => bind (sortedOf h _ _ _) fun _ => step _
    · exact step _
  · exact step _

end Callback

/-! ### Evaluation -/

/-- Evaluations with `fuel` follow each other. -/
structure Evaluation (R : σ → Except δ τ → Prop) (host : Host σ ε) (other : Host τ δ)
    (fuel : Nat) : Prop where
  evaluate : ∀ scopes expression,
    Follows R (evaluate host fuel scopes expression) (evaluate other fuel scopes expression)
  evaluateBound : ∀ scopes bound,
    Follows R (evaluateBound host fuel scopes bound) (evaluateBound other fuel scopes bound)
  evaluateDefaults : ∀ scopes parameters,
    Follows R (evaluateDefaults host fuel scopes parameters)
      (evaluateDefaults other fuel scopes parameters)
  evaluateArguments : ∀ scopes arguments,
    Follows R (evaluateArguments host fuel scopes arguments)
      (evaluateArguments other fuel scopes arguments)
  comprehend : ∀ scopes clauses {action action'}, Follows R action action' →
    Follows R (comprehend host fuel scopes clauses action)
      (comprehend other fuel scopes clauses action')
  assign : ∀ scopes target value,
    Follows R (assign host fuel scopes target value) (assign other fuel scopes target value)
  callValue : ∀ function arguments,
    Follows R (callValue host fuel function arguments) (callValue other fuel function arguments)
  callClosure : ∀ closure arguments,
    Follows R (callClosure host fuel closure arguments) (callClosure other fuel closure arguments)
  execute : ∀ scopes statement,
    Follows R (execute host fuel scopes statement) (execute other fuel scopes statement)

section Evaluation

variable {host : Host σ ε} {other : Host τ δ} {fuel : Nat}

theorem change (h : host.Follows R other) (name : Text) (positional : List Given)
    (named : List (Text × Given)) :
    Follows R (host.change name positional named) (other.change name positional named) := by
  intro state memory reached hreached a state' memory' hrun
  cases hcall : host.call state name positional named with
  | error error => simp only [Host.change, hcall, reduceCtorEq] at hrun
  | ok next =>
      simp only [Host.change, hcall, Except.ok.injEq, Prod.mk.injEq, Machine.mk.injEq,
        true_and] at hrun
      obtain ⟨rfl, rfl⟩ := hrun
      refine ⟨_, h.call hreached hcall, ?_⟩
      -- A host that has refused an earlier call is not asked any more.
      cases reached with
      | error error => rfl
      | ok otherState =>
          change (match other.call otherState name positional named with
            | .ok state => .ok ((), ⟨state, memory⟩)
            | .error error => .error (.refused error)) = resume (other.call _ _ _ _) _ _
          cases other.call otherState name positional named <;> rfl

theorem callFunction (h : host.Follows R other) (name : Text) (arguments : Arguments) :
    Follows R (host.callFunction name arguments) (other.callFunction name arguments) :=
  bind (step _) fun _ => bind (change h _ _ _) fun _ => pure _

theorem readName (h : host.Follows R other) (scopes : List Nat) (place : Place) (name : Text) :
    Follows R (liftM (Script.readName host scopes place name) : Run σ ε Value)
      (liftM (Script.readName other scopes place name)) := by
  have hvalue : host.value? name = other.value? name := by
    simp only [Host.value?, h.texts, h.functions]
  have hread :
      Script.readName host scopes place name = Script.readName other scopes place name := by
    cases place <;> simp only [Script.readName, hvalue]
  rw [hread]
  exact step _

theorem evaluate_succ (h : host.Follows R other) (ih : Evaluation R host other fuel)
    (scopes : List Nat) (expression : Expression) :
    Follows R (Script.evaluate host (fuel + 1) scopes expression)
      (Script.evaluate other (fuel + 1) scopes expression) := by
  -- Each case goes through the actions of its expression in turn: what has less fuel is in `ih`,
  -- and the host has no part in the rest.
  cases expression with
  | name place name => exact readName h scopes place name
  | int | float | string | bytes => exact pure _
  | tuple items => exact bind (mapM (ih.evaluate scopes) items) fun _ => pure _
  | list items => exact bind (mapM (ih.evaluate scopes) items) fun _ => step _
  | dict entries =>
      refine bind (step _) fun address => bind (forIn (fun entry _ => ?_) _ _) fun _ => pure _
      exact bind (ih.evaluate scopes _) fun _ => bind (ih.evaluate scopes _) fun _ =>
        bind (step _) fun _ => bind (step _) fun _ => bind (step _) fun _ =>
          bind (step _) fun _ => pure _
  | unary operator operand => exact bind (ih.evaluate scopes operand) fun _ => step _
  | binary operator left right =>
      exact bind (ih.evaluate scopes left) fun _ => bind (ih.evaluate scopes right) fun _ => step _
  | both left right =>
      exact bind (ih.evaluate scopes left) fun _ => bind (step _) fun _ =>
        ite (ih.evaluate scopes right) (pure _)
  | either left right =>
      exact bind (ih.evaluate scopes left) fun _ => bind (step _) fun _ =>
        ite (pure _) (ih.evaluate scopes right)
  | choice condition yes no =>
      exact bind (ih.evaluate scopes condition) fun _ => bind (step _) fun _ =>
        ite (ih.evaluate scopes yes) (ih.evaluate scopes no)
  | «attribute» object name => exact bind (ih.evaluate scopes object) fun _ => step _
  | index object key =>
      exact bind (ih.evaluate scopes object) fun _ => bind (ih.evaluate scopes key) fun _ => step _
  | slice object start stop size =>
      exact bind (ih.evaluate scopes object) fun _ => bind (ih.evaluateBound scopes start) fun _ =>
        bind (ih.evaluateBound scopes stop) fun _ => bind (ih.evaluateBound scopes size) fun _ =>
          step _
  | call function arguments =>
      exact bind (ih.evaluate scopes function) fun _ =>
        bind (ih.evaluateArguments scopes arguments) fun _ => ih.callValue _ _
  | listOf _ item clauses =>
      exact bind (step _) fun _ => bind (ih.comprehend scopes clauses
        (bind (ih.evaluate scopes item) fun _ => step _)) fun _ => pure _
  | dictOf _ key value clauses =>
      exact bind (step _) fun _ => bind (ih.comprehend scopes clauses
        (bind (ih.evaluate scopes key) fun _ => bind (ih.evaluate scopes value) fun _ => step _))
          fun _ => pure _
  | lambda code parameters body =>
      exact bind (ih.evaluateDefaults scopes parameters) fun _ => bind (step _) fun _ => pure _

theorem evaluateBound_succ (ih : Evaluation R host other fuel) (scopes : List Nat)
    (bound : Option Expression) :
    Follows R (Script.evaluateBound host (fuel + 1) scopes bound)
      (Script.evaluateBound other (fuel + 1) scopes bound) := by
  cases bound with
  | none => exact pure _
  | some bound => exact ih.evaluate scopes bound

theorem evaluateDefaults_succ (ih : Evaluation R host other fuel) (scopes : List Nat)
    (parameters : List (Parameter Expression)) :
    Follows R (Script.evaluateDefaults host (fuel + 1) scopes parameters)
      (Script.evaluateDefaults other (fuel + 1) scopes parameters) := by
  refine mapM (fun parameter => ?_) parameters
  cases parameter with
  | optional name default => exact bind (ih.evaluate scopes default) fun _ => pure _
  | required | rest | namedRest => exact pure _

theorem evaluateArguments_succ (ih : Evaluation R host other fuel) (scopes : List Nat)
    (arguments : List (Argument Expression)) :
    Follows R (Script.evaluateArguments host (fuel + 1) scopes arguments)
      (Script.evaluateArguments other (fuel + 1) scopes arguments) := by
  refine bind (forIn (fun argument _ => ?_) _ _) fun gathered => ?_
  · cases argument <;> exact bind (ih.evaluate scopes _) fun _ => pure _
  · exact bind (step _) fun _ => bind (step _) fun _ => pure _

theorem comprehend_succ (ih : Evaluation R host other fuel) (scopes : List Nat)
    (clauses : List (Clause Expression)) {action : Run σ ε Unit} {action' : Run τ δ Unit}
    (haction : Follows R action action') :
    Follows R (Script.comprehend host (fuel + 1) scopes clauses action)
      (Script.comprehend other (fuel + 1) scopes clauses action') := by
  cases clauses with
  | nil => exact haction
  | cons clause rest =>
      cases clause with
      | filter condition =>
          exact bind (ih.evaluate scopes condition) fun _ => bind (step _) fun _ =>
            ite (ih.comprehend scopes rest haction) (pure _)
      | each target source =>
          refine bind (ih.evaluate scopes source) fun source =>
            bind (goThrough source fun value => ?_) fun _ => pure _
          exact bind (ih.assign scopes target value) fun _ =>
            bind (ih.comprehend scopes rest haction) fun _ => pure _

theorem assign_succ (ih : Evaluation R host other fuel) (scopes : List Nat) (target : Expression)
    (value : Value) :
    Follows R (Script.assign host (fuel + 1) scopes target value)
      (Script.assign other (fuel + 1) scopes target value) := by
  cases target with
  | name place name => exact step _
  | index object key =>
      exact bind (ih.evaluate scopes object) fun _ => bind (ih.evaluate scopes key) fun _ => step _
  | «attribute» object name => exact bind (ih.evaluate scopes object) fun _ => step _
  | tuple targets | list targets =>
      refine bind (step _) fun items => bind (forIn (fun pair _ => ?_) _ _) fun _ => pure _
      exact bind (ih.assign scopes pair.1 pair.2) fun _ => pure _
  | _ => exact step _

theorem callValue_succ (h : host.Follows R other) (ih : Evaluation R host other fuel)
    (function : Value) (arguments : Arguments) :
    Follows R (Script.callValue host (fuel + 1) function arguments)
      (Script.callValue other (fuel + 1) function arguments) := by
  cases function with
  | function address =>
      refine bind (step _) fun object => ?_
      cases object with
      | function closure => exact ih.callClosure closure arguments
      | _ => exact step _
  | builtin name =>
      -- Here alone the host is asked for something.
      simp only [Script.callValue, h.functions]
      exact ite (callFunction h name arguments) (callUniversal ih.callValue _ arguments)
  | _ => exact step _

theorem callClosure_succ (ih : Evaluation R host other fuel) (closure : Closure)
    (arguments : Arguments) :
    Follows R (Script.callClosure host (fuel + 1) closure arguments)
      (Script.callClosure other (fuel + 1) closure arguments) := by
  obtain ⟨code, name, parameters, body, scopes⟩ := closure
  refine bind (step _) fun calls => bind (step _) fun inner => ?_
  cases body with
  | expression value =>
      exact bind (ih.evaluate inner value) fun _ => bind (step _) fun _ => pure _
  | statements statements =>
      refine bind (inSequence (ih.execute inner) statements) fun flow => ?_
      cases flow <;> exact bind (pure _) fun _ => bind (step _) fun _ => pure _

theorem execute_succ (h : host.Follows R other) (ih : Evaluation R host other fuel)
    (scopes : List Nat) (statement : Statement) :
    Follows R (Script.execute host (fuel + 1) scopes statement)
      (Script.execute other (fuel + 1) scopes statement) := by
  cases statement with
  | pass | stopLoop | nextTurn => exact pure _
  | result value =>
      cases value with
      | none => exact pure _
      | some value => exact bind (ih.evaluate scopes value) fun _ => pure _
  | expression value => exact bind (ih.evaluate scopes value) fun _ => pure _
  | assign target value =>
      exact bind (ih.evaluate scopes value) fun _ => bind (ih.assign scopes target _) fun _ =>
        pure _
  | update operator target value =>
      cases target with
      | name place name =>
          exact bind (readName h scopes place name) fun _ =>
            bind (ih.evaluate scopes value) fun _ => bind (step _) fun _ =>
              bind (step _) fun _ => pure _
      | index object key =>
          exact bind (ih.evaluate scopes object) fun _ => bind (ih.evaluate scopes key) fun _ =>
            bind (step _) fun _ => bind (ih.evaluate scopes value) fun _ => bind (step _) fun _ =>
              bind (step _) fun _ => pure _
      | «attribute» object name =>
          exact bind (ih.evaluate scopes object) fun _ => bind (step _) fun _ =>
            bind (ih.evaluate scopes value) fun _ => bind (step _) fun _ => step _
      | _ => exact step _
  | branch condition yes no =>
      exact bind (ih.evaluate scopes condition) fun _ => bind (step _) fun _ =>
        inSequence (ih.execute scopes) _
  | loop target source body =>
      exact bind (ih.evaluate scopes source) fun source => goThrough source fun value =>
        bind (ih.assign scopes target value) fun _ => inSequence (ih.execute scopes) body
  | define place code name parameters body =>
      exact bind (ih.evaluateDefaults scopes parameters) fun _ => bind (step _) fun _ =>
        bind (step _) fun _ => pure _
  | load => exact step _

/-- **Evaluations follow each other**, whatever their fuel is. -/
theorem evaluation (h : host.Follows R other) (fuel : Nat) : Evaluation R host other fuel := by
  induction fuel with
  | zero => constructor <;> intros <;> exact step _
  | succ fuel ih =>
      exact ⟨evaluate_succ h ih, evaluateBound_succ ih, evaluateDefaults_succ ih,
        evaluateArguments_succ ih, comprehend_succ ih, assign_succ ih, callValue_succ h ih,
        callClosure_succ ih, execute_succ h ih⟩

end Evaluation

end Follows

/-! ### Scripts -/

/-- How a script ends whose host has got to `reached`. -/
def Outcome.ofReached : Except δ τ → Outcome τ δ
  | .ok state => .finished state
  | .error error => .stopped (.refused error)

theorem Host.Follows.predefined {R : σ → Except δ τ → Prop} {host : Host σ ε} {other : Host τ δ}
    (h : host.Follows R other) : host.predefined = other.predefined := by
  simp only [Host.predefined, h.texts, h.functions]

/-- **Scripts follow each other**: where a script comes to its end with one host, it does so with
another, unless that host stops it. -/
theorem run_follows {R : σ → Except δ τ → Prop} {host : Host σ ε} {other : Host τ δ}
    (h : host.Follows R other) {state state' : σ} {otherState : τ} {text : Text}
    (hstate : R state (.ok otherState)) (hrun : run host state text = .finished state') :
    ∃ reached, R state' reached ∧ run other otherState text = .ofReached reached := by
  unfold run at hrun ⊢
  rw [← h.predefined]
  cases hscript : (parse? text).bind (resolve? host.predefined) with
  | none => simp only [hscript, reduceCtorEq] at hrun
  | some script =>
      have hfollows := Follows.inSequence
        ((Follows.evaluation h (8 * text.length + 8)).execute [0]) script
      simp only [hscript] at hrun ⊢
      split at hrun
      · cases hrun
      · rename_i flow machine hend
        cases hrun
        obtain ⟨reached, hreached, heq⟩ := hfollows _ _ _ hstate flow _ _ hend
        refine ⟨reached, hreached, ?_⟩
        simp only [resume] at heq
        simp only [StateT.run, heq]
        cases reached <;> rfl

/-! ### Calls -/

/-- A call of a function of a host. -/
structure Call where
  function : Text
  positional : List Given
  named : List (Text × Given)
  deriving DecidableEq, Repr

/-- Where calls in a row bring a host. -/
def Host.replay (host : Host σ ε) (state : σ) (calls : List Call) : Except ε σ :=
  calls.foldlM (fun state call => host.call state call.function call.positional call.named) state

/-- A host that knows the same names as another, accepts every call, and notes it. -/
def Host.recorder (host : Host σ ε) : Host (List Call) Empty where
  texts := host.texts
  functions := host.functions
  call := fun calls function positional named => .ok (calls ++ [⟨function, positional, named⟩])

theorem Host.replay_append_singleton (host : Host σ ε) (state : σ) (calls : List Call)
    (call : Call) :
    host.replay state (calls ++ [call]) = host.replay state calls >>= fun state =>
      host.call state call.function call.positional call.named := by
  simp only [Host.replay, List.foldlM_append, List.foldlM_cons, List.foldlM_nil, bind_pure]

/-- **A script changes its host only by its calls.**  They are the same for every host, and they are
made one after the other until one is refused. -/
theorem run_eq_replay {host : Host σ ε} {state : σ} {text : Text} {calls : List Call}
    (h : run host.recorder [] text = .finished calls) :
    run host state text = .ofReached (host.replay state calls) := by
  have hfollows : host.recorder.Follows (fun calls reached => reached = host.replay state calls)
      host := by
    refine ⟨rfl, rfl, ?_⟩
    intro calls reached function positional named calls' hreached hcall
    cases hcall
    rw [hreached, Host.replay_append_singleton]
  obtain ⟨reached, rfl, hrun⟩ := run_follows hfollows rfl h
  exact hrun

/-- A script that comes to its end has made calls that the host has accepted. -/
theorem exists_replay_of_run {host : Host σ ε} {state state' : σ} {text : Text}
    (h : run host state text = .finished state') :
    ∃ calls, run host.recorder [] text = .finished calls ∧
      host.replay state calls = .ok state' := by
  have hfollows : host.Follows
      (fun reached noted => ∃ calls, noted = .ok calls ∧ host.replay state calls = .ok reached)
      host.recorder := by
    refine ⟨rfl, rfl, ?_⟩
    rintro reached _ function positional named next ⟨calls, rfl, hcalls⟩ hcall
    refine ⟨calls ++ [⟨function, positional, named⟩], rfl, ?_⟩
    rw [Host.replay_append_singleton, hcalls]
    exact hcall
  obtain ⟨_, ⟨calls, rfl, hcalls⟩, hrun⟩ := run_follows hfollows ⟨[], rfl, rfl⟩ h
  exact ⟨calls, hrun, hcalls⟩

end Script

end TableAssembler

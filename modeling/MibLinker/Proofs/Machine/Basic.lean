import MibLinker.Proofs.Paths
import MibLinker.Proofs.Preservation

/-!
# Linking step by step

A machine that does one small thing at a time: it begins a job, or hands an answer on to what has been
waiting for it. What waits is kept on a stack of frames, so that the calls of the loader which are
running can be counted there. The machine compares the numbers of the tables before it calls the
loader, and knows of no other bound; nothing in its making says that it comes to an end.
-/

namespace MibLinker

variable {σ : Type}

/-! ## Jobs and frames -/

/-- What a job is answered with, unless it fails. -/
inductive JobKind where
  | module
  | symbols
  | ended

abbrev JobKind.Value : JobKind → Type
  | module => Shared Module
  | symbols => List Symbol
  | ended => Unit

abbrev JobKind.Answer (k : JobKind) : Type := Except LinkError k.Value

inductive Job (σ : Type) : JobKind → Type where
  | fetch (name : String) : Job σ .module
  | find (imports : List Import) : Job σ .symbols
  | resolve (imports : List Import) : Job σ .symbols
  | resolveFrom (requester : String) (imports : List Import) : Job σ .symbols
  | load (name : String) : Job σ .module
  | loadAll (names : List String) : Job σ .ended
  | build (b : Builder) (body : Body σ) : Job σ .module
  | script (rest : Script σ) : Job σ .ended

/-- What is done with an answer of one kind, to come to one of another kind. -/
inductive Frame (σ : Type) : JobKind → JobKind → Type where
  /-- The module of an import is being fetched, and more imports are to be found after it. -/
  | finding (i : Import) (rest : List Import) : Frame σ .module .symbols
  | found (symbol : Symbol) : Frame σ .symbols .symbols
  | leaving {k : JobKind} : Frame σ k k
  /-- The imports of a module under construction are being resolved. -/
  | constructing (requester : String) : Frame σ .symbols .symbols
  /-- A loader call for a name is running. -/
  | calling (name : String) : Frame σ .ended .module
  | loadingAll (rest : List String) : Frame σ .module .ended
  | building (b : Builder) (body : Body σ) : Frame σ .symbols .module
  | asking {k : JobKind} (next : k.Answer → Script σ) : Frame σ k .ended

inductive Stack (σ : Type) : JobKind → JobKind → Type where
  | nil {k : JobKind} : Stack σ k k
  | cons {i j k : JobKind} (frame : Frame σ i j) (rest : Stack σ j k) : Stack σ i k

inductive Machine (σ : Type) (k : JobKind) where
  | working {j : JobKind} (job : Job σ j) (stack : Stack σ j k) (s : Session σ)
  | answering {j : JobKind} (answer : j.Answer) (stack : Stack σ j k) (s : Session σ)

/-! ## Steps -/

variable {i j k : JobKind}

/-- Asks for a module: for the published one, or for a failure to repeat, or for the cycle that is
closed; else a loader is called, unless so many calls are running as the options allow. -/
def Machine.beginFetch (name : String) (stack : Stack σ .module k) (s : Session σ) : Machine σ k :=
  match s.registry.module? name with
  | some m => .answering (.ok m) stack s
  | none =>
      match s.registry.freshFailure? name with
      | some e => .answering (.error e) stack s
      | none =>
          if name ∈ s.registry.loading then
            .answering (.error (.circularDependency (s.registry.cycle name))) stack s
          else if s.registry.options.maxLoadDepth ≤ s.registry.activeLoads then
            .answering (.error (.loadDepthExceeded name s.registry.options.maxLoadDepth)) stack s
          else
            match s.loader with
            | none =>
                .answering (.error (.moduleNotFound name)) stack
                  (s.recordFailure name (.moduleNotFound name))
            | some loader =>
                .working (.script (loader.definition name)) (.cons (.calling name) stack)
                  (s.opened name)

def Machine.beginScript (script : Script σ) (stack : Stack σ .ended k) (s : Session σ) :
    Machine σ k :=
  match script with
  | .done result => .answering (j := .ended) result stack s
  | .resolve imports next => .working (.resolve imports) (.cons (.asking next) stack) s
  | .resolveFrom requester imports next =>
      .working (.resolveFrom requester imports) (.cons (.asking next) stack) s
  | .load name next => .working (.load name) (.cons (.asking next) stack) s
  | .publish m next =>
      let step := s.publish m
      .working (.script (next step.1)) stack step.2
  | .replaceLoader offers definition next =>
      .working (.script next) stack (s.withLoader ⟨offers, definition⟩)
  | .work change next => .working (.script (next s.view)) stack (s.withDesk (change s.view))

def Job.begin : Job σ j → Stack σ j k → Session σ → Machine σ k
  | .fetch name, stack, s => Machine.beginFetch name stack s
  | .find [], stack, s => .answering (.ok []) stack s
  | .find (i :: rest), stack, s => .working (.fetch i.module) (.cons (.finding i rest) stack) s
  | .resolve imports, stack, s => .working (.find imports) (.cons .leaving stack) (s.change .enter)
  | .resolveFrom requester imports, stack, s =>
      if requester ∈ s.registry.loading then .working (.resolve imports) stack s
      else
        .working (.resolve imports) (.cons (.constructing requester) stack)
          (s.change (·.push requester))
  | .load name, stack, s => .working (.fetch name) (.cons .leaving stack) (s.change .enter)
  | .loadAll [], stack, s => .answering (.ok ()) stack s
  | .loadAll (name :: rest), stack, s => .working (.load name) (.cons (.loadingAll rest) stack) s
  | .build b body, stack, s =>
      .working (.resolveFrom b.name b.imports) (.cons (.building b body) stack) s
  | .script rest, stack, s => Machine.beginScript rest stack s

def Frame.resume : Frame σ i j → i.Answer → Stack σ j k → Session σ → Machine σ k
  | .finding _ _, .error e, stack, s => .answering (.error e) stack s
  | .finding i rest, .ok m, stack, s =>
      match m.value.lookup? i.symbol with
      | none => .answering (.error (.unresolvedSymbol i.module i.symbol)) stack s
      | some symbol =>
          .working (.find rest) (.cons (.found symbol) stack)
            (s.log (.resolved i.module i.symbol symbol.kindName))
  | .found _, .error e, stack, s => .answering (.error e) stack s
  | .found symbol, .ok symbols, stack, s => .answering (.ok (symbol :: symbols)) stack s
  | .leaving, answer, stack, s => .answering answer stack (s.change .leave)
  | .constructing _, answer, stack, s => .answering answer stack (s.change .pop)
  | .calling name, .error e, stack, s =>
      .answering (.error e) stack ((s.closed.discard name).recordFailure name e)
  | .calling name, .ok (), stack, s =>
      match s.closed.registry.module? name with
      | none =>
          .answering (.error (.notPublished name)) stack
            (s.closed.recordFailure name (.notPublished name))
      | some m => .answering (.ok m) stack (s.closed.log (.loaded name))
  | .loadingAll _, .error e, stack, s => .answering (.error e) stack s
  | .loadingAll rest, .ok _, stack, s => .working (.loadAll rest) stack s
  | .building _ _, .error e, stack, s => .answering (.error e) stack s
  | .building b body, .ok symbols, stack, s =>
      match (body (b.resolved symbols)).run s.desk with
      | (.error e, desk) => .answering (.error e) stack (s.withDesk desk)
      | (.ok exports, desk) =>
          let step := (s.withDesk desk).publish (b.module exports)
          .answering (.ok step.1) stack step.2
  | .asking next, answer, stack, s => .working (.script (next answer)) stack s

namespace Machine

def step : Machine σ k → Option (Machine σ k)
  | working job stack s => some (job.begin stack s)
  | answering _ .nil _ => none
  | answering answer (.cons frame rest) s => some (frame.resume answer rest s)

def run : Nat → Machine σ k → Machine σ k
  | 0, m => m
  | turns + 1, m =>
      match m.step with
      | none => m
      | some m' => run turns m'

abbrev Reaches : Machine σ k → Machine σ k → Prop :=
  Relation.ReflTransGen fun m m' => m.step = some m'

theorem reaches_run (turns : Nat) (m : Machine σ k) : m.Reaches (run turns m) := by
  induction turns generalizing m with
  | zero => exact .refl
  | succ turns ih =>
      unfold run
      cases hs : m.step with
      | none => exact .refl
      | some m' => exact .head hs (ih m')

/-- A machine goes only one way, so whatever it comes by lies before its end. -/
theorem Reaches.of_ended {m m' : Machine σ k} {answer : k.Answer} {s : Session σ}
    (ends : m.Reaches (.answering answer .nil s)) (h : m.Reaches m') :
    m'.Reaches (.answering answer .nil s) := by
  have onward : Relator.RightUnique fun m m' : Machine σ k => m.step = some m' :=
    fun _ _ _ first second => Option.some.inj (first.symm.trans second)
  exact reaches_end_of_rightUnique onward (fun _ step => Option.some_ne_none _ step.symm) ends h

end Machine

/-! ## Answers -/

namespace Job

/-- Whether a machine that begins a job in a session comes to this answer, and to a session with it,
whatever is waiting. -/
def Returns (job : Job σ j) (s : Session σ) (result : j.Answer × Session σ) : Prop :=
  ∀ ⦃k : JobKind⦄ (stack : Stack σ j k),
    (Machine.working job stack s).Reaches (.answering result.1 stack result.2)

end Job

end MibLinker

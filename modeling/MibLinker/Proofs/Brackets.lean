import MibLinker.Proofs.Chronicle
import MibLinker.Proofs.Course

/-!
# Brackets in the journal

The journal tells that a loader is called and, in another entry, how that ended. Taken by
themselves, these entries are a word of opening and closing brackets. A word is balanced if every
load that is opened in it is closed in it, with whole loads and nothing else in between; that can be
seen by reading the word from the left, with the loads that are still open at hand.
-/

namespace MibLinker

variable {σ : Type}

/-- What the journal tells of a load: that it begins, inside so many others, or that it has ended,
with an error or without one. -/
inductive Bracket where
  | opening (name : String) (depth : Nat)
  | closing (name : String) (error : Option LinkError)
deriving DecidableEq

def Entry.bracket? : Entry → Option Bracket
  | event (.loading name depth) => some (.opening name depth)
  | event (.loaded name) => some (.closing name none)
  | event (.loadFailed name error) => some (.closing name (some error))
  | _ => none

namespace Bracket

/-! ## Words of brackets -/

/-- Whether a word that stands inside so many open loads consists of whole loads, each of which
tells how many are open around it. -/
inductive Balanced : Nat → List Bracket → Prop
  | nil {depth : Nat} : Balanced depth []
  | load {depth : Nat} {name : String} {inside : List Bracket} {error : Option LinkError}
      {rest : List Bracket} :
      Balanced (depth + 1) inside → Balanced depth rest →
        Balanced depth (opening name depth :: (inside ++ closing name error :: rest))

/-- The loads that are open after a bracket, the innermost first. The bracket cannot be read if it
opens a load inside more or fewer others than it says, or closes another one than the innermost. -/
def read (opens : List String) : Bracket → Option (List String)
  | opening name depth => if depth = opens.length then some (name :: opens) else none
  | closing name _ => if opens.head? = some name then some opens.tail else none

def readAll (opens : List String) (word : List Bracket) : Option (List String) :=
  word.foldlM read opens

theorem readAll_cons (opens : List String) (bracket : Bracket) (word : List Bracket) :
    readAll opens (bracket :: word) = (read opens bracket).bind fun opens => readAll opens word :=
  rfl

theorem readAll_append {opens opens' : List String} {word : List Bracket}
    (h : readAll opens word = some opens') (word' : List Bracket) :
    readAll opens (word ++ word') = readAll opens' word' := by
  rw [readAll, List.foldlM_append]
  change (readAll opens word).bind _ = _
  rw [h]
  rfl

theorem read_opening (opens : List String) (name : String) :
    read opens (opening name opens.length) = some (name :: opens) := if_pos rfl

theorem read_closing (opens : List String) (name : String) (error : Option LinkError) :
    read (name :: opens) (closing name error) = some opens := if_pos rfl

/-- Whether a word closes these open loads, from the innermost outwards, and is balanced before,
between and after. -/
inductive Closes : List String → List Bracket → Prop
  | nil {word : List Bracket} : Balanced 0 word → Closes [] word
  | cons {name : String} {opens : List String} {inside : List Bracket} {error : Option LinkError}
      {rest : List Bracket} :
      Balanced (opens.length + 1) inside → Closes opens rest →
        Closes (name :: opens) (inside ++ closing name error :: rest)

/-- A load in front of a word that closes others is one more load that is balanced before them. -/
theorem Closes.load {name : String} {opens : List String} {inside : List Bracket}
    {error : Option LinkError} {rest : List Bracket} (h : Balanced (opens.length + 1) inside)
    (closes : Closes opens rest) :
    Closes opens (opening name opens.length :: (inside ++ closing name error :: rest)) := by
  cases closes with
  | nil balanced => exact .nil (.load h balanced)
  | @cons outer opens before error' rest balanced closes =>
      -- The load joins what is balanced before the end of the innermost open one.
      have joined : Balanced (opens.length + 1)
          (opening name (opens.length + 1) :: (inside ++ closing name error :: before)) :=
        .load h balanced
      have whole : Closes (outer :: opens)
          (opening name (opens.length + 1) :: (inside ++ closing name error :: before) ++
            closing outer error' :: rest) :=
        .cons joined closes
      simpa using whole

theorem closes_of_readAll {opens : List String} {word : List Bracket}
    (h : readAll opens word = some []) : Closes opens word := by
  induction word generalizing opens with
  | nil =>
      obtain rfl : opens = [] := Option.some.inj h
      exact .nil .nil
  | cons bracket word ih =>
      cases bracket with
      | opening name depth =>
          by_cases counted : depth = opens.length
          · subst counted
            rw [readAll_cons, read_opening] at h
            cases ih h with
            | cons balanced closes => exact .load balanced closes
          · simp [readAll_cons, read, counted] at h
      | closing name error =>
          cases opens with
          | nil => simp [readAll_cons, read] at h
          | cons top opens =>
              by_cases same : top = name
              · subst same
                rw [readAll_cons, read_closing] at h
                exact .cons .nil (ih h)
              · simp [readAll_cons, read, same] at h

/-- A word that can be read until no load is open any more is balanced. -/
theorem balanced_of_readAll {word : List Bracket} (h : readAll [] word = some []) :
    Balanced 0 word := by
  cases closes_of_readAll h with
  | nil balanced => exact balanced

end Bracket

/-! ## The brackets of a journal -/

namespace Session

def bracketsSince (later earlier : Session σ) : List Bracket :=
  (later.since earlier).reverse.filterMap Entry.bracket?

theorem bracketsSince_eq {later earlier : Session σ} (entries : List Entry)
    (h : later.journal = entries ++ earlier.journal) :
    later.bracketsSince earlier = entries.reverse.filterMap Entry.bracket? := by
  rw [bracketsSince, since_eq entries h]

theorem bracketsSince_trans {s t u : Session σ} (first : Grows s t) (second : Grows t u) :
    u.bracketsSince s = t.bracketsSince s ++ u.bracketsSince t := by
  rw [bracketsSince, since_trans first second, List.reverse_append, List.filterMap_append]
  rfl

/-- All brackets have been made since the start. -/
theorem bracketsSince_start (s : Session σ) (options : Options) (loader : Option (Loader σ))
    (data : σ) :
    s.bracketsSince (start options loader data) = s.entries.filterMap Entry.bracket? :=
  bracketsSince_eq s.journal (List.append_nil _).symm

theorem bracketsSince_log (s : Session σ) (e : Event) :
    (s.log e).bracketsSince s = (Entry.event e).bracket?.toList := by
  rw [bracketsSince, since_log, List.reverse_singleton]
  cases h : (Entry.event e).bracket? <;> simp [h]

theorem bracketsSince_opened (s : Session σ) (name : String) :
    (s.opened name).bracketsSince s = [.opening name s.registry.activeLoads] := by
  rw [bracketsSince, since_opened]
  rfl

theorem bracketsSince_recordFailure (s : Session σ) (name : String) (e : LinkError) :
    (s.recordFailure name e).bracketsSince s = [.closing name (some e)] := by
  rw [bracketsSince, since_recordFailure]
  rfl

theorem bracketsSince_discard (s : Session σ) (name : String) :
    (s.discard name).bracketsSince s = [] := by
  refine List.filterMap_eq_nil_iff.mpr fun entry mem => ?_
  rw [eq_of_mem_since_discard (List.mem_reverse.mp mem)]
  rfl

/-- Withdrawing what a failed load has published is not told of by a bracket of its own. -/
theorem bracketsSince_withdraw (s : Session σ) (name : String) (e : LinkError) :
    ((s.closed.discard name).recordFailure name e).bracketsSince s = [.closing name (some e)] := by
  have split := bracketsSince_trans (grows_discard s.closed name)
    (grows_recordFailure (s.closed.discard name) name e)
  rw [bracketsSince_discard, bracketsSince_recordFailure] at split
  exact split

/-! ## Parts of a run without brackets -/

/-- Whether nothing has been told of loads since an earlier session, whose loader, if it had one,
has at most been replaced. -/
structure Quiet (earlier later : Session σ) : Prop where
  grows : Grows earlier later
  brackets_eq : later.bracketsSince earlier = []
  loader : earlier.loader.isSome = true → later.loader.isSome = true

theorem quiet_of_same {s t : Session σ} (journal : t.journal = s.journal)
    (loader : s.loader.isSome = true → t.loader.isSome = true) : s.Quiet t where
  grows := .of_append [] journal
  brackets_eq := bracketsSince_eq [] journal
  loader := loader

theorem Quiet.refl (s : Session σ) : s.Quiet s := quiet_of_same rfl id

theorem Quiet.trans {s t u : Session σ} (first : s.Quiet t) (second : t.Quiet u) : s.Quiet u where
  grows := first.grows.trans second.grows
  brackets_eq := by
    rw [bracketsSince_trans first.grows second.grows, first.brackets_eq, second.brackets_eq]
    rfl
  loader := second.loader ∘ first.loader

theorem quiet_change (s : Session σ) (f : Registry → Registry) : s.Quiet (s.change f) :=
  quiet_of_same rfl id

theorem quiet_withLoader (s : Session σ) (loader : Loader σ) : s.Quiet (s.withLoader loader) :=
  quiet_of_same rfl fun _ => rfl

theorem quiet_log {s : Session σ} {e : Event} (h : (Entry.event e).bracket? = none) :
    s.Quiet (s.log e) where
  grows := grows_log s e
  brackets_eq := by rw [bracketsSince_log, h, Option.toList_none]
  loader := id

theorem quiet_withDesk (s : Session σ) (desk : Desk σ) : s.Quiet (s.withDesk desk) where
  grows := grows_withDesk s desk
  brackets_eq := by
    rw [bracketsSince, since_withDesk]
    simp [Entry.bracket?]
  loader := id

theorem quiet_publish (s : Session σ) (m : Module) : s.Quiet (s.publish m).2 := by
  have untold : (Entry.event (s.registry.publishEvent m)).bracket? = none := by
    unfold Registry.publishEvent
    split <;> rfl
  exact (quiet_log untold).trans (quiet_of_same rfl id)

end Session

end MibLinker

import MibLinker.Proofs.Moment

/-!
# The course of a run

Some of what happens in a run leaves no entry in the journal: a frame is entered, a call is answered
with an error, a script looks at the tables, a definition ends with an error. The marks of a run
tell that, in the order in which it happens and with all that goes on inside of nested loads.
`Course` lists the steps that a run consists of, with their marks; every run is a course
(`Course.operation`), so that what holds of every step holds of every run.
-/

namespace MibLinker

variable {σ α : Type}

/-- What happens in a run besides what is entered in the journal. -/
inductive Mark where
  /-- The frame of a call is entered, inside so many others. -/
  | entered (depth : Nat)
  /-- A request of a script or of a client is answered with an error. -/
  | refused (error : LinkError)
  | looked (registry : Registry)
  /-- A definition, or the body of a module, ends with an error. -/
  | failed (error : LinkError)

namespace Session

instance (s : Session σ) (name : String) : Decidable (s.Vacant name) :=
  decidable_of_iff (s.registry.module? name = none ∧ s.registry.freshFailure? name = none ∧
      name ∉ s.registry.loading)
    ⟨fun ⟨unpublished, unfailed, offStack⟩ => ⟨unpublished, unfailed, offStack⟩,
      fun h => ⟨h.unpublished, h.unfailed, h.offStack⟩⟩

end Session

/-! ## The marks of a run -/

def errorOf : Except LinkError α → Option LinkError
  | .ok _ => none
  | .error e => some e

@[simp] theorem errorOf_ok (answer : α) : errorOf (.ok answer) = none := rfl

@[simp] theorem errorOf_error (e : LinkError) :
    errorOf (.error e : Except LinkError α) = some e := rfl

def Mark.ofAnswer (error : Option LinkError) : List Mark := (error.map refused).toList

def Mark.ofEnding (error : Option LinkError) : List Mark := (error.map failed).toList

namespace Linking

abbrev Marking (σ : Type) := String → Session σ → List Mark

section Given

variable (fetch : Fetch σ) (marking : Marking σ)

def findMarks : List Import → Session σ → List Mark
  | [], _ => []
  | i :: rest, s => marking i.module s ++
      match resolveOne fetch i s with
      | (.error _, _) => []
      | (.ok _, t) => findMarks rest t

def frameMarks (depth : Nat) (inside : List Mark) (error : Option LinkError) : List Mark :=
  .entered depth :: (inside ++ Mark.ofAnswer error)

def resolveMarks (imports : List Import) (s : Session σ) : List Mark :=
  frameMarks s.registry.depth (findMarks fetch marking imports (s.change .enter))
    (errorOf (resolve fetch imports s).1)

def resolveFromMarks (requester : String) (imports : List Import) (s : Session σ) : List Mark :=
  resolveMarks fetch marking imports (s.constructing requester)

def loadMarks (name : String) (s : Session σ) : List Mark :=
  frameMarks s.registry.depth (marking name (s.change .enter)) (errorOf (load fetch name s).1)

def loadAllMarks : List String → Session σ → List Mark
  | [], _ => []
  | name :: rest, s => loadMarks fetch marking name s ++
      match load fetch name s with
      | (.error _, _) => []
      | (.ok _, t) => loadAllMarks rest t

def scriptMarks : Script σ → Session σ → List Mark
  | .done _, _ => []
  | .resolve imports next, s =>
      let step := resolve fetch imports s
      resolveMarks fetch marking imports s ++ scriptMarks (next step.1) step.2
  | .resolveFrom requester imports next, s =>
      let step := resolveFrom fetch requester imports s
      resolveFromMarks fetch marking requester imports s ++ scriptMarks (next step.1) step.2
  | .load name next, s =>
      let step := load fetch name s
      loadMarks fetch marking name s ++ scriptMarks (next step.1) step.2
  | .publish m next, s =>
      let step := s.publish m
      scriptMarks (next step.1) step.2
  | .replaceLoader offers definition next, s => scriptMarks next (s.withLoader ⟨offers, definition⟩)
  | .work change next, s =>
      .looked s.registry :: scriptMarks (next s.view) (s.withDesk (change s.view))

def buildMarks (b : Builder) (body : Body σ) (s : Session σ) : List Mark :=
  resolveFromMarks fetch marking b.name b.imports s ++
    match resolveFrom fetch b.name b.imports s with
    | (.error _, _) => []
    | (.ok symbols, t) => Mark.ofEnding (errorOf ((body (b.resolved symbols)).run t.desk).1)

def callMarks (loader : Loader σ) (name : String) (s : Session σ) : List Mark :=
  scriptMarks fetch marking (loader.definition name) (s.opened name) ++
    Mark.ofEnding (errorOf (run fetch (loader.definition name) (s.opened name)).1)

end Given

def fetchMarks : Nat → Marking σ
  | 0 => fun _ _ => []
  | allowance + 1 => fun name s =>
      match s.loader with
      | none => []
      | some loader =>
          if s.Vacant name then callMarks (fetch allowance) (fetchMarks allowance) loader name s
          else []

end Linking

def Call.marks (allowance : Nat) (s : Session σ) : Call → List Mark
  | resolve imports =>
      Linking.resolveMarks (Linking.fetch allowance) (Linking.fetchMarks allowance) imports s
  | resolveFrom requester imports =>
      Linking.resolveFromMarks (Linking.fetch allowance) (Linking.fetchMarks allowance) requester
        imports s
  | load name => Linking.loadMarks (Linking.fetch allowance) (Linking.fetchMarks allowance) name s

def Operation.marks (allowance : Nat) (s : Session σ) : Operation σ → List Mark
  | call c => c.marks allowance s
  | preload =>
      Linking.loadAllMarks (Linking.fetch allowance) (Linking.fetchMarks allowance)
          s.registry.options.preload s ++
        Mark.ofAnswer (errorOf
          (Linking.loadAll (Linking.fetch allowance) s.registry.options.preload s).1)
  | publish _ => []
  | build b body =>
      Linking.buildMarks (Linking.fetch allowance) (Linking.fetchMarks allowance) b body s ++
        Mark.ofAnswer (errorOf (Linking.build (Linking.fetch allowance) b body s).1)
  | setLoader _ => []
  | define script =>
      Linking.scriptMarks (Linking.fetch allowance) (Linking.fetchMarks allowance) script s

def Session.marksOf (s : Session σ) : List (Operation σ) → List Mark
  | [] => []
  | operation :: rest =>
      operation.marks s.registry.allowance s ++
        (operation.perform s.registry.allowance s).marksOf rest

/-! ## Courses -/

/-- The steps that a run consists of: from a session, with marks, to a session and perhaps an
error. -/
inductive Course : Session σ → List Mark → Option LinkError → Session σ → Prop
  | rest {s} : Course s [] none s
  | andThen {s a t b r u} : Course s a none t → Course t b r u → Course s (a ++ b) r u
  /-- Whoever made a request may go on after an error. -/
  | caught {s a r t} : Course s a r t → Course s a none t
  | found {s module symbol kind} : Course s [] none (s.log (.resolved module symbol kind))
  | missing {s module symbol} : Course s [] (some (.unresolvedSymbol module symbol)) s
  | repeated {s name e} : s.registry.freshFailure? name = some e → Course s [] (some e) s
  | cyclic {s name} : name ∈ s.registry.loading →
      Course s [] (some (.circularDependency (s.registry.cycle name))) s
  | tooDeep {s name depth} : Course s [] (some (.loadDepthExceeded name depth)) s
  | frame {s a r t} : Course (s.change .enter) a r t →
      Course s (Linking.frameMarks s.registry.depth a r) r (t.change .leave)
  | construct {s requester a r t} : requester ∉ s.registry.loading →
      Course (s.change (·.push requester)) a r t → Course s a r (t.change .pop)
  | publish {s m} : Course s [] none (s.publish m).2
  | replace {s loader} : Course s [] none (s.withLoader loader)
  | look {s desk} : Course s [.looked s.registry] none (s.withDesk desk)
  | desk {s desk} : Course s [] none (s.withDesk desk)
  /-- The body of a module that is built from outside fails, and the builder with it. -/
  | refuse {s e} : Course s [.failed e] (some e) s
  | absent {s name} : s.Vacant name → s.loader = none →
      Course s [] (some (.moduleNotFound name)) (s.recordFailure name (.moduleNotFound name))
  | failed {s a t name e} : s.Vacant name → Course (s.opened name) a none t →
      Course s (a ++ [.failed e]) (some e) ((t.closed.discard name).recordFailure name e)
  | unpublished {s a t name} : s.Vacant name → Course (s.opened name) a none t →
      t.registry.module? name = none →
      Course s a (some (.notPublished name)) (t.closed.recordFailure name (.notPublished name))
  | loaded {s a t name m} : s.Vacant name → Course (s.opened name) a none t →
      t.registry.module? name = some m → Course s a none (t.closed.log (.loaded name))
  /-- A request of several calls is answered with an error, which one of them was. -/
  | answered {s a r t} : Course s a r t → Course s (a ++ Mark.ofAnswer r) r t

/-- What every part of linking respects, a course respects. -/
theorem Lawful.course {R : Session σ → Session σ → Prop} (h : Lawful R) {s t : Session σ}
    {a : List Mark} {r : Option LinkError} (course : Course s a r t) : R s t := by
  induction course with
  | rest | missing | repeated | cyclic | tooDeep | refuse => exact h.refl _
  | andThen _ _ first second => exact h.trans first second
  | caught _ ih | answered _ ih => exact ih
  | found => exact h.find ..
  | frame _ ih => exact h.frame ih
  | construct offStack _ ih => exact h.construct offStack ih
  | publish => exact h.publish ..
  | replace => exact h.replace ..
  | look | desk => exact h.desk ..
  | absent vacant hl => exact h.absent vacant hl
  | failed vacant _ ih => exact h.failed _ vacant ih
  | @unpublished s a t name vacant _ hm ih =>
      have withdrawn := h.failed (.notPublished name) vacant ih
      rwa [Session.discard_of_unpublished (s := t.closed) hm] at withdrawn
  | loaded vacant _ hm ih => exact h.loaded vacant ih hm

namespace Course

def Marked (fetch : Linking.Fetch σ) (marking : Linking.Marking σ) : Prop :=
  ∀ name s, Course s (marking name s) (errorOf (fetch name s).1) (fetch name s).2

section Given

variable {fetch : Linking.Fetch σ} {marking : Linking.Marking σ} (h : Marked fetch marking)

include h

theorem resolveOne (i : Import) (s : Session σ) :
    Course s (marking i.module s) (errorOf (Linking.resolveOne fetch i s).1)
      (Linking.resolveOne fetch i s).2 := by
  have fetched := h i.module s
  unfold Linking.resolveOne
  rcases hr : fetch i.module s with ⟨e | m, t⟩ <;> rw [hr] at fetched
  · exact fetched
  · cases hs : m.value.lookup? i.symbol with
    | none => simpa [hs] using fetched.andThen .missing
    | some symbol => simpa [hs] using fetched.andThen .found

theorem find (imports : List Import) (s : Session σ) :
    Course s (Linking.findMarks fetch marking imports s)
      (errorOf (Linking.resolveEach fetch imports s).1)
      (Linking.resolveEach fetch imports s).2 := by
  induction imports generalizing s with
  | nil => exact .rest
  | cons i rest ih =>
      have first := resolveOne h i s
      unfold Linking.resolveEach Linking.findMarks
      rcases hr : Linking.resolveOne fetch i s with ⟨e | symbol, t⟩ <;> rw [hr] at first
      · simpa using first
      · have later := first.andThen (ih t)
        rcases he : Linking.resolveEach fetch rest t with ⟨e | symbols, u⟩ <;>
          simpa [he] using later

theorem resolve (imports : List Import) (s : Session σ) :
    Course s (Linking.resolveMarks fetch marking imports s)
      (errorOf (Linking.resolve fetch imports s).1) (Linking.resolve fetch imports s).2 :=
  .frame (find h imports _)

theorem resolveFrom (requester : String) (imports : List Import) (s : Session σ) :
    Course s (Linking.resolveFromMarks fetch marking requester imports s)
      (errorOf (Linking.resolveFrom fetch requester imports s).1)
      (Linking.resolveFrom fetch requester imports s).2 := by
  unfold Linking.resolveFrom Linking.resolveFromMarks Session.constructing
  split
  · exact resolve h imports s
  · next offStack => exact .construct offStack (resolve h imports _)

theorem load (name : String) (s : Session σ) :
    Course s (Linking.loadMarks fetch marking name s) (errorOf (Linking.load fetch name s).1)
      (Linking.load fetch name s).2 := .frame (h name _)

theorem loadAll (names : List String) (s : Session σ) :
    Course s (Linking.loadAllMarks fetch marking names s)
      (errorOf (Linking.loadAll fetch names s).1) (Linking.loadAll fetch names s).2 := by
  induction names generalizing s with
  | nil => exact .rest
  | cons name rest ih =>
      have first := load h name s
      unfold Linking.loadAll Linking.loadAllMarks
      rcases hr : Linking.load fetch name s with ⟨e | m, t⟩ <;> rw [hr] at first
      · simpa using first
      · exact first.andThen (ih t)

theorem script (script : Script σ) (s : Session σ) :
    Course s (Linking.scriptMarks fetch marking script s) none (Linking.run fetch script s).2 := by
  induction script generalizing s with
  | done result => exact .rest
  | resolve imports next ih => exact (resolve h imports s).caught.andThen (ih _ _)
  | resolveFrom requester imports next ih =>
      exact (resolveFrom h requester imports s).caught.andThen (ih _ _)
  | load name next ih => exact (load h name s).caught.andThen (ih _ _)
  | publish m next ih => exact Course.publish.andThen (ih _ _)
  | replaceLoader offers definition next _ ih => exact Course.replace.andThen (ih _)
  | work change next ih => exact Course.look.andThen (ih _ _)

theorem build (b : Builder) (body : Body σ) (s : Session σ) :
    Course s (Linking.buildMarks fetch marking b body s)
      (errorOf (Linking.build fetch b body s).1) (Linking.build fetch b body s).2 := by
  have resolved := resolveFrom h b.name b.imports s
  unfold Linking.build Linking.buildMarks
  rcases hr : Linking.resolveFrom fetch b.name b.imports s with ⟨e | symbols, t⟩ <;>
    rw [hr] at resolved
  · simpa using resolved
  · rcases hb : (body (b.resolved symbols)).run t.desk with ⟨e | exports, desk⟩
    · have refused : Course s _ (some e) (t.withDesk desk) :=
        (resolved.andThen .desk).andThen .refuse
      simpa [hb, Mark.ofEnding] using refused
    · have published : Course s _ none ((t.withDesk desk).publish (b.module exports)).2 :=
        (resolved.andThen .desk).andThen .publish
      simpa [hb, Mark.ofEnding] using published

theorem attempt {name : String} {s : Session σ} {loader : Loader σ} (vacant : s.Vacant name)
    (hl : s.loader = some loader) :
    Course s (Linking.callMarks fetch marking loader name s)
      (errorOf (Linking.attempt fetch name s).1) (Linking.attempt fetch name s).2 := by
  have inside := script h (loader.definition name) (s.opened name)
  simp only [Linking.attempt, Linking.callAnyLoader, hl, Linking.callLoader_eq, Linking.callMarks]
  rcases hr : Linking.run fetch (loader.definition name) (s.opened name) with ⟨e | _, t⟩ <;>
    rw [hr] at inside
  · exact .failed vacant inside
  · have quiet : Linking.scriptMarks fetch marking (loader.definition name) (s.opened name) ++
        Mark.ofEnding (errorOf (.ok ())) =
          Linking.scriptMarks fetch marking (loader.definition name) (s.opened name) :=
      List.append_nil _
    rw [quiet]
    cases hm : t.closed.registry.module? name with
    | none =>
        simp only [hm]
        exact .unpublished vacant inside hm
    | some m =>
        simp only [hm]
        exact .loaded vacant inside hm

end Given

/-- A request that ends before the loader is called. -/
theorem refused {s : Session σ} {name : String} (onward : Linking.Fetch σ)
    (occupied : ¬ s.Vacant name) :
    Course s [] (errorOf (Linking.fetchBy onward name s).1) (Linking.fetchBy onward name s).2 := by
  cases hm : s.registry.module? name with
  | some m =>
      simp only [Linking.fetchBy, hm]
      exact .rest
  | none =>
      cases hf : s.registry.freshFailure? name with
      | some e =>
          simp only [Linking.fetchBy, hm, hf]
          exact .repeated hf
      | none =>
          by_cases hl : name ∈ s.registry.loading
          · simp only [Linking.fetchBy, hm, hf, if_pos hl]
            exact .cyclic hl
          · exact (occupied ⟨hm, hf, hl⟩).elim

theorem fetch (allowance : Nat) :
    Marked (σ := σ) (Linking.fetch allowance) (Linking.fetchMarks allowance) := by
  induction allowance with
  | zero =>
      intro name s
      by_cases vacant : s.Vacant name
      · rw [Linking.fetch, Linking.fetchBy_of_vacant _ vacant]
        exact .tooDeep
      · exact refused _ vacant
  | succ allowance ih =>
      intro name s
      by_cases vacant : s.Vacant name
      · rw [Linking.fetch, Linking.fetchBy_of_vacant _ vacant]
        cases hl : s.loader with
        | none =>
            simp only [Linking.fetchMarks, hl, Linking.attempt, Linking.callAnyLoader]
            exact .absent vacant hl
        | some loader =>
            simp only [Linking.fetchMarks, hl, if_pos vacant]
            exact attempt ih vacant hl
      · have quiet : Linking.fetchMarks (allowance + 1) name s = [] := by
          cases hl : s.loader with
          | none => simp only [Linking.fetchMarks, hl]
          | some loader => simp only [Linking.fetchMarks, hl, if_neg vacant]
        rw [quiet]
        exact refused _ vacant

/-- Every operation is a course, with its marks. -/
theorem operation (allowance : Nat) (s : Session σ) (operation : Operation σ) :
    Course s (operation.marks allowance s) none (operation.perform allowance s) := by
  have marked := fetch (σ := σ) allowance
  cases operation with
  | call c =>
      cases c with
      | resolve imports => exact (resolve marked imports s).caught
      | resolveFrom requester imports => exact (resolveFrom marked requester imports s).caught
      | load name => exact (load marked name s).caught
  | preload => exact (loadAll marked _ s).answered.caught
  | publish m => exact .publish
  | build b body => exact (build marked b body s).answered.caught
  | setLoader loader => exact .replace
  | define rest => exact script marked rest s

theorem afterAll (s : Session σ) (operations : List (Operation σ)) :
    Course s (s.marksOf operations) none (s.afterAll operations) := by
  induction operations generalizing s with
  | nil => exact .rest
  | cons first rest ih => exact (operation _ s first).andThen (ih _)

end Course

end MibLinker

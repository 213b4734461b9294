import MibLinker.Proofs.Answers
import MibLinker.Proofs.Permanence

/-!
# Resolving in order

The requests of a list are answered one after the other, each in the session that those before it
leave. When all are found, a symbol is the one that its module goes on to export until something is
published under the name of that module. When one is not found, the list ends there, and what was
loaded for those before it stays loaded.
-/

namespace MibLinker

variable {σ : Type}

namespace Linking

def reached (fetch : Fetch σ) (imports : List Import) (count : Nat) (s : Session σ) : Session σ :=
  (resolveEach fetch (imports.take count) s).2

/-- Whether the requests of a list, which begins in one session and is over in another, have found
symbols: each request its own, and the one that its module still exports if nothing has been
published under the name of that module since. -/
structure AllFound (fetch : Fetch σ) (imports : List Import) (symbols : List Symbol)
    (inside after : Session σ) (finish : Session σ → Session σ) : Prop where
  length_eq : symbols.length = imports.length
  ended : after = finish (reached fetch imports imports.length inside)
  alone : ∀ {i : Nat} {request : Import} {symbol : Symbol}, imports[i]? = some request →
    symbols[i]? = some symbol →
      (resolveOne fetch request (reached fetch imports i inside)).1 = .ok symbol
  lookup : ∀ {i : Nat} {request : Import} {symbol : Symbol}, imports[i]? = some request →
    symbols[i]? = some symbol →
      (∀ e ∈ after.since (reached fetch imports (i + 1) inside),
        e.publishes request.module = false) →
      after.registry.lookup? request = some symbol

/-- Whether the requests of a list have come to an end with one that failed. Nothing is done after
that one but to `finish`, and the modules of those before it are published. -/
structure StoppedAt (fetch : Fetch σ) (imports : List Import) (e : LinkError)
    (inside after : Session σ) (finish : Session σ → Session σ) (k : Nat) : Prop where
  before : ∃ symbols, (resolveEach fetch (imports.take k) inside).1 = .ok symbols
  alone : ∃ request failed, imports[k]? = some request ∧
    resolveOne fetch request (reached fetch imports k inside) = (.error e, failed) ∧
      after = finish failed
  published : ∀ {i : Nat} {request : Import}, i < k → imports[i]? = some request →
    after.registry.isLoaded request.module = true

def InOrder (fetch : Fetch σ) (imports : List Import) (inside : Session σ)
    (finish : Session σ → Session σ) : Except LinkError (List Symbol) × Session σ → Prop
  | (.ok symbols, after) => AllFound fetch imports symbols inside after finish
  | (.error e, after) => ∃ k, StoppedAt fetch imports e inside after finish k

/-! ## Lists of requests -/

theorem reached_succ {fetch : Fetch σ} {first : Import} {rest : List Import} {s t : Session σ}
    {symbol : Symbol} (h : resolveOne fetch first s = (.ok symbol, t)) (count : Nat) :
    reached fetch (first :: rest) (count + 1) s = reached fetch rest count t := by
  simp only [reached, List.take_succ_cons, resolveEach, h]
  rcases resolveEach fetch (rest.take count) t with ⟨e | symbols, u⟩ <;> rfl

theorem length_of_resolveEach {fetch : Fetch σ} {imports : List Import} {s t : Session σ}
    {symbols : List Symbol} (h : resolveEach fetch imports s = (.ok symbols, t)) :
    symbols.length = imports.length := by
  induction imports generalizing s symbols with
  | nil =>
      obtain rfl := Except.ok.inj (Prod.mk.inj h).1
      rfl
  | cons first rest ih =>
      obtain ⟨symbol, later, u, found, others⟩ := found_of_resolveEach h
      simp only [resolveEach, found, others, Prod.mk.injEq, Except.ok.injEq, and_true] at h
      rw [← h, List.length_cons, List.length_cons, ih others]

/-- A request of a list that is answered has found its symbol where the requests before it lead, and
the others are answered from there. -/
theorem found_at {fetch : Fetch σ} {imports : List Import} {s t : Session σ}
    {symbols : List Symbol} (h : resolveEach fetch imports s = (.ok symbols, t)) {i : Nat}
    {request : Import} (requested : imports[i]? = some request) :
    ∃ symbol later, symbols[i]? = some symbol ∧
      resolveOne fetch request (reached fetch imports i s) =
        (.ok symbol, reached fetch imports (i + 1) s) ∧
      resolveEach fetch (imports.drop (i + 1)) (reached fetch imports (i + 1) s) =
        (.ok later, t) := by
  induction imports generalizing s symbols i with
  | nil => simp at requested
  | cons first rest ih =>
      obtain ⟨symbol, later, u, found, others⟩ := found_of_resolveEach h
      simp only [resolveEach, found, others, Prod.mk.injEq, Except.ok.injEq, and_true] at h
      subst h
      rw [reached_succ found]
      cases i with
      | zero =>
          obtain rfl : first = request := by simpa using requested
          exact ⟨symbol, later, rfl, found, others⟩
      | succ i =>
          rw [reached_succ found]
          exact ih others requested

/-! ## What is found stays -/

/-- A request that is answered finds what its module exports. -/
theorem exported_of_resolveOne {n : Nat} {request : Import} {s t : Session σ} {symbol : Symbol}
    (h : resolveOne (fetch n) request s = (.ok symbol, t)) :
    ∃ m, t.registry.module? request.module = some m ∧
      m.value.lookup? request.symbol = some symbol := by
  obtain ⟨m, u, fetched, found, rfl⟩ := found_of_resolveOne h
  have published : u.registry.module? request.module = some m := module?_of_fetch fetched
  exact ⟨m, published, found⟩

theorem keeps_of_resolveEach {n : Nat} {imports : List Import} {s t : Session σ}
    {answer : Except LinkError (List Symbol)} (h : resolveEach (fetch n) imports s = (answer, t)) :
    s.Keeps t := by
  have keeps := Session.lawful_keeps.resolveEach (Session.lawful_keeps.fetch n) imports s
  rwa [h] at keeps

theorem isLoaded_at {n : Nat} {imports : List Import} {s t u : Session σ} {symbols : List Symbol}
    (h : resolveEach (fetch n) imports s = (.ok symbols, t)) (keeps : t.Keeps u) {i : Nat}
    {request : Import} (requested : imports[i]? = some request) :
    u.registry.isLoaded request.module = true := by
  obtain ⟨symbol, later, -, found, others⟩ := found_at h requested
  obtain ⟨m, published, -⟩ := exported_of_resolveOne found
  obtain ⟨m', published', -⟩ := ((keeps_of_resolveEach others).trans keeps).published published
  exact Registry.isLoaded_iff.mpr ⟨m', published'⟩

theorem lookup?_at {n : Nat} {imports : List Import} {s t u : Session σ} {symbols : List Symbol}
    (h : resolveEach (fetch n) imports s = (.ok symbols, t)) (keeps : t.Keeps u) {i : Nat}
    {request : Import} {symbol : Symbol} (requested : imports[i]? = some request)
    (answered : symbols[i]? = some symbol)
    (quiet : ∀ e ∈ u.since (reached (fetch n) imports (i + 1) s),
      e.publishes request.module = false) :
    u.registry.lookup? request = some symbol := by
  obtain ⟨symbol', later, answered', found, others⟩ := found_at h requested
  obtain rfl := Option.some.inj (answered.symm.trans answered')
  obtain ⟨m, published, exported⟩ := exported_of_resolveOne found
  obtain ⟨m', published', same⟩ := ((keeps_of_resolveEach others).trans keeps).published published
  obtain rfl := same quiet
  rw [Registry.lookup?, published', Option.bind_some, exported]

/-! ## Lists of requests in a frame -/

theorem inOrder_of_finish (n : Nat) (imports : List Import) (s : Session σ)
    {finish : Session σ → Session σ} (keeps : ∀ t : Session σ, t.Keeps (finish t)) :
    InOrder (fetch n) imports s finish
      ((resolveEach (fetch n) imports s).1, finish (resolveEach (fetch n) imports s).2) := by
  rcases h : resolveEach (fetch n) imports s with ⟨e | symbols, t⟩
  · obtain ⟨before, request, rest, symbols, u, rfl, found, missed⟩ :=
      exists_missed_of_resolveEach h
    have first : (before ++ request :: rest).take before.length = before := List.take_left
    have there : reached (fetch n) (before ++ request :: rest) before.length s = u := by
      rw [reached, first, found]
    refine ⟨before.length, ?before, ?alone, ?published⟩
    case before => exact ⟨symbols, by rw [first, found]⟩
    case alone => exact ⟨request, t, by simp, by rw [there, missed], rfl⟩
    case published =>
      intro i other hi requested
      rw [List.getElem?_append_left hi] at requested
      have last : u.Keeps t := by
        have kept := Session.lawful_keeps.resolveOne (Session.lawful_keeps.fetch n) request u
        rwa [missed] at kept
      exact isLoaded_at found (last.trans (keeps t)) requested
  · refine ⟨length_of_resolveEach h, by rw [reached, List.take_length, h], ?alone, ?lookup⟩
    case alone =>
      intro i request symbol requested answered
      obtain ⟨symbol', later, answered', found, -⟩ := found_at h requested
      obtain rfl := Option.some.inj (answered.symm.trans answered')
      rw [found]
    case lookup =>
      intro i request symbol requested answered quiet
      exact lookup?_at h (keeps t) requested answered quiet

end Linking

theorem Call.keeps_finish (c : Call) (earlier t : Session σ) : t.Keeps (c.finish earlier t) := by
  obtain h | h := c.finish_cases earlier t <;> rw [h]
  · exact .of_modules_eq (.refl t) rfl
  · exact .of_modules_eq (.refl t) rfl

/-- Whatever the scripts of the loader are, and however deep the call is nested, the requests of a
list are answered in order, up to the first that fails. -/
theorem resolves_in_order (n : Nat) (s : Session σ) (imports : List Import) :
    Linking.InOrder (Linking.fetch n) imports (s.change .enter) ((Call.resolve imports).finish s)
        (Linking.resolve (Linking.fetch n) imports s) ∧
      ∀ requester, Linking.InOrder (Linking.fetch n) imports
        ((s.constructing requester).change .enter) ((Call.resolveFrom requester imports).finish s)
        (Linking.resolveFrom (Linking.fetch n) requester imports s) := by
  constructor
  · exact Linking.inOrder_of_finish n imports _ ((Call.resolve imports).keeps_finish s)
  · intro requester
    rw [Linking.resolveFrom_eq_finish]
    have keeps := (Call.resolveFrom requester imports).keeps_finish s
    exact Linking.inOrder_of_finish n imports _ keeps

def Loader.halting : Loader Unit where
  offers name := name == "A" || name == "B"
  definition name :=
    if name = "A" then .ofBuilder ⟨name, []⟩ fun _ => .ofResult (.ok .single)
    else .ofBuilder ⟨name, [⟨"A", "x"⟩]⟩ fun _ => .ofResult (.error (.definition name "refused"))

/-- The second request fails after the first one has had its module loaded, and the third one is not
made. On behalf of a module that asks for no more than the first, the symbol is found, and its
module goes on to export it. -/
theorem resolves_in_order_up_to_refusal :
    let s := Session.start {} (some .halting) ()
    let requests : List Import := [⟨"A", "x"⟩, ⟨"B", "x"⟩, ⟨"C", "x"⟩]
    let refused : LinkError := .definition "B" "refused"
    let step := Linking.resolve (Linking.fetch 2) requests s
    let found := Linking.resolveFrom (Linking.fetch 2) "C" [⟨"A", "x"⟩] s
    step.1 = .error refused ∧
      Linking.StoppedAt (Linking.fetch 2) requests refused (s.change .enter) step.2
        ((Call.resolve requests).finish s) 1 ∧
      step.2.registry.isLoaded "A" = true ∧ step.2.loaderCalls s "C" = 0 ∧
      found.1 = .ok [.factory .typed] ∧
      found.2.registry.lookup? ⟨"A", "x"⟩ = some (.factory .typed) := by
  intro s requests refused step found
  have stopped : ∃ k, Linking.StoppedAt (Linking.fetch 2) requests refused (s.change .enter) step.2
      ((Call.resolve requests).finish s) k := (resolves_in_order 2 s requests).1
  obtain ⟨k, stopped⟩ := stopped
  have second : k = 1 := by
    obtain ⟨request, failed, asked, missed, -⟩ := stopped.alone
    obtain ⟨symbols, answered⟩ := stopped.before
    rcases k with _ | _ | _ | k
    · obtain rfl : (⟨"A", "x"⟩ : Import) = request := Option.some.inj asked
      cases congrArg Prod.fst missed
    · rfl
    · cases answered
    · cases asked
  subst second
  have all : Linking.AllFound (Linking.fetch 2) [⟨"A", "x"⟩] [.factory .typed]
      ((s.constructing "C").change .enter) found.2 ((Call.resolveFrom "C" [⟨"A", "x"⟩]).finish s) :=
    (resolves_in_order 2 s [⟨"A", "x"⟩]).2 "C"
  have first : step.2.registry.isLoaded "A" = true :=
    stopped.published (i := 0) Nat.zero_lt_one rfl
  have exported := all.lookup (i := 0) rfl rfl (by decide)
  exact ⟨rfl, stopped, first, by decide, rfl, exported⟩

end MibLinker

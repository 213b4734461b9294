import MibLinker.Proofs.Preservation

/-!
# What an answer says

From the answer of a request and the session that it leaves, back to what has been found on the way,
or to what was not.
-/

namespace MibLinker.Linking

variable {σ : Type}

/-- A request for a module is answered by the published one, or by an attempt to load it. -/
theorem published_or_vacant_of_fetchBy {onward : Fetch σ} {name : String} {s t : Session σ}
    {m : Shared Module} (h : fetchBy onward name s = (.ok m, t)) :
    s.registry.module? name = some m ∧ s = t ∨
      s.Vacant name ∧ onward name s = (.ok m, t) := by
  cases hm : s.registry.module? name with
  | some m' =>
      simp only [fetchBy, hm] at h
      obtain ⟨answer, same⟩ := Prod.mk.inj h
      exact .inl ⟨congrArg some (Except.ok.inj answer), same⟩
  | none =>
      cases hf : s.registry.freshFailure? name with
      | some e =>
          simp only [fetchBy, hm, hf] at h
          cases (Prod.mk.inj h).1
      | none =>
          by_cases hl : name ∈ s.registry.loading
          · simp only [fetchBy, hm, hf, if_pos hl] at h
            cases (Prod.mk.inj h).1
          · simp only [fetchBy, hm, hf, if_neg hl] at h
            exact .inr ⟨⟨hm, hf, hl⟩, h⟩

/-- A request for a module fails as a load of it has within the same request, or because the module
is being loaded, or with an attempt to load it. -/
theorem refused_or_vacant_of_fetchBy {onward : Fetch σ} {name : String} {s t : Session σ}
    {e : LinkError} (h : fetchBy onward name s = (.error e, t)) :
    s.registry.freshFailure? name = some e ∨ name ∈ s.registry.loading ∨
      s.Vacant name ∧ onward name s = (.error e, t) := by
  cases hm : s.registry.module? name with
  | some m =>
      simp only [fetchBy, hm] at h
      cases (Prod.mk.inj h).1
  | none =>
      cases hf : s.registry.freshFailure? name with
      | some e' =>
          simp only [fetchBy, hm, hf] at h
          exact .inl (congrArg some (Except.error.inj (Prod.mk.inj h).1))
      | none =>
          by_cases hl : name ∈ s.registry.loading
          · exact .inr (.inl hl)
          · simp only [fetchBy, hm, hf, if_neg hl] at h
            exact .inr (.inr ⟨⟨hm, hf, hl⟩, h⟩)

theorem module?_of_fetch {allowance : Nat} {name : String} {s t : Session σ} {m : Shared Module}
    (h : fetch allowance name s = (.ok m, t)) : t.registry.module? name = some m := by
  cases allowance with
  | zero =>
      rcases published_or_vacant_of_fetchBy h with ⟨hm, rfl⟩ | ⟨_, deep⟩
      · exact hm
      · cases (Prod.mk.inj deep).1
  | succ allowance =>
      rcases published_or_vacant_of_fetchBy h with ⟨hm, rfl⟩ | ⟨_, attempted⟩
      · exact hm
      · rcases attempt_cases (fetch allowance) name s with
          ⟨_, heq⟩ | ⟨loader, _, ⟨e, u, _, heq⟩ | ⟨m', u, _, hm, heq⟩⟩ <;>
          rw [attempted] at heq <;> obtain ⟨answer, rfl⟩ := Prod.mk.inj heq
        · cases answer
        · cases answer
        · exact hm.trans (congrArg some (Except.ok.inj answer).symm)

/-- A module that cannot be fetched was not published before. -/
theorem unpublished_of_refused {allowance : Nat} {name : String} {s t : Session σ} {e : LinkError}
    (h : fetch allowance name s = (.error e, t)) : s.registry.module? name = none := by
  cases hm : s.registry.module? name with
  | none => rfl
  | some m =>
      rw [fetch_of_published allowance hm] at h
      cases (Prod.mk.inj h).1

theorem found_of_resolveOne {fetch : Fetch σ} {i : Import} {s t : Session σ} {symbol : Symbol}
    (h : resolveOne fetch i s = (.ok symbol, t)) :
    ∃ m u, fetch i.module s = (.ok m, u) ∧ m.value.lookup? i.symbol = some symbol ∧
      t = u.log (.resolved i.module i.symbol symbol.kindName) := by
  unfold resolveOne at h
  rcases hr : fetch i.module s with ⟨e | m, u⟩ <;> simp only [hr] at h
  · cases (Prod.mk.inj h).1
  · cases hs : m.value.lookup? i.symbol with
    | none =>
        simp only [hs] at h
        cases (Prod.mk.inj h).1
    | some found =>
        simp only [hs] at h
        obtain ⟨answer, rfl⟩ := Prod.mk.inj h
        obtain rfl := Except.ok.inj answer
        exact ⟨m, u, rfl, hs, rfl⟩

/-- A symbol is not found when its module is not, or when the module does not export it. -/
theorem missed_of_resolveOne {fetch : Fetch σ} {i : Import} {s t : Session σ} {e : LinkError}
    (h : resolveOne fetch i s = (.error e, t)) :
    fetch i.module s = (.error e, t) ∨
      ∃ m, fetch i.module s = (.ok m, t) ∧ m.value.lookup? i.symbol = none ∧
        e = .unresolvedSymbol i.module i.symbol := by
  unfold resolveOne at h
  rcases hr : fetch i.module s with ⟨e' | m, u⟩ <;> simp only [hr] at h
  · obtain ⟨answer, rfl⟩ := Prod.mk.inj h
    exact .inl (by rw [Except.error.inj answer])
  · cases hs : m.value.lookup? i.symbol with
    | none =>
        simp only [hs] at h
        obtain ⟨answer, rfl⟩ := Prod.mk.inj h
        exact .inr ⟨m, rfl, hs, (Except.error.inj answer).symm⟩
    | some found =>
        simp only [hs] at h
        cases (Prod.mk.inj h).1

theorem found_of_resolveEach {fetch : Fetch σ} {i : Import} {rest : List Import}
    {s t : Session σ} {symbols : List Symbol}
    (h : resolveEach fetch (i :: rest) s = (.ok symbols, t)) :
    ∃ symbol later u, resolveOne fetch i s = (.ok symbol, u) ∧
      resolveEach fetch rest u = (.ok later, t) := by
  rw [resolveEach] at h
  rcases hr : resolveOne fetch i s with ⟨e | symbol, u⟩ <;> simp only [hr] at h
  · cases (Prod.mk.inj h).1
  · rcases he : resolveEach fetch rest u with ⟨e | later, v⟩ <;> simp only [he] at h
    · cases (Prod.mk.inj h).1
    · obtain ⟨_, rfl⟩ := Prod.mk.inj h
      exact ⟨symbol, later, u, rfl, he⟩

theorem missed_of_resolveEach {fetch : Fetch σ} {i : Import} {rest : List Import}
    {s t : Session σ} {e : LinkError}
    (h : resolveEach fetch (i :: rest) s = (.error e, t)) :
    resolveOne fetch i s = (.error e, t) ∨
      ∃ symbol u, resolveOne fetch i s = (.ok symbol, u) ∧
        resolveEach fetch rest u = (.error e, t) := by
  rw [resolveEach] at h
  rcases hr : resolveOne fetch i s with ⟨e' | symbol, u⟩ <;> simp only [hr] at h
  · obtain ⟨answer, rfl⟩ := Prod.mk.inj h
    exact .inl (by rw [Except.error.inj answer])
  · rcases he : resolveEach fetch rest u with ⟨e' | later, v⟩ <;> simp only [he] at h
    · exact .inr ⟨symbol, u, rfl, he.trans h⟩
    · cases (Prod.mk.inj h).1

/-- Imports that are not all found are found up to one that is not. -/
theorem exists_missed_of_resolveEach {fetch : Fetch σ} {imports : List Import} {s t : Session σ}
    {e : LinkError} (h : resolveEach fetch imports s = (.error e, t)) :
    ∃ before i rest symbols u, imports = before ++ i :: rest ∧
      resolveEach fetch before s = (.ok symbols, u) ∧ resolveOne fetch i u = (.error e, t) := by
  induction imports generalizing s with
  | nil => cases (Prod.mk.inj h).1
  | cons first others ih =>
      rcases missed_of_resolveEach h with missed | ⟨symbol, u, found, later⟩
      · exact ⟨[], first, others, [], s, rfl, rfl, missed⟩
      · obtain ⟨before, i, rest, symbols, v, rfl, hb, missed⟩ := ih later
        refine ⟨first :: before, i, rest, symbol :: symbols, v, rfl, ?_, missed⟩
        simp only [resolveEach, found, hb]

/-- The three ways in which a build ends: an import is not resolved, the body fails, or the module
is published. -/
theorem build_cases (fetch : Fetch σ) (b : Builder) (body : Body σ) (s : Session σ) :
    (∃ e t, resolveFrom fetch b.name b.imports s = (.error e, t) ∧
      build fetch b body s = (.error e, t)) ∨
    ∃ symbols t, resolveFrom fetch b.name b.imports s = (.ok symbols, t) ∧
      ((∃ e desk, (body (b.resolved symbols)).run t.desk = (.error e, desk) ∧
          build fetch b body s = (.error e, t.withDesk desk)) ∨
        ∃ exports desk, (body (b.resolved symbols)).run t.desk = (.ok exports, desk) ∧
          build fetch b body s = (.ok ((t.withDesk desk).publish (b.module exports)).1,
            ((t.withDesk desk).publish (b.module exports)).2)) := by
  simp only [build]
  rcases resolveFrom fetch b.name b.imports s with ⟨e | symbols, t⟩
  · exact .inl ⟨e, t, rfl, rfl⟩
  · refine .inr ⟨symbols, t, rfl, ?_⟩
    rcases hb : (body (b.resolved symbols)).run t.desk with ⟨e | exports, desk⟩
    · exact .inl ⟨e, desk, rfl, by simp only [hb]⟩
    · exact .inr ⟨exports, desk, rfl, by simp only [hb]⟩

/-- The tables after a build are those after its imports were resolved, but for its own publication.
-/
theorem registry_of_build (fetch : Fetch σ) (b : Builder) (body : Body σ) (s : Session σ) :
    (∀ e, (build fetch b body s).1 = .error e →
      (build fetch b body s).2.registry = (resolveFrom fetch b.name b.imports s).2.registry) ∧
    ∀ m, (build fetch b body s).1 = .ok m →
      (∃ symbols, (resolveFrom fetch b.name b.imports s).1 = .ok symbols) ∧
      ∃ exports, (build fetch b body s).2.registry =
        ((resolveFrom fetch b.name b.imports s).2.registry.publish (b.module exports)).2 := by
  rcases build_cases fetch b body s with
    ⟨e, t, hr, hb⟩ | ⟨symbols, t, hr, ⟨e, desk, -, hb⟩ | ⟨exports, desk, -, hb⟩⟩ <;> rw [hr, hb]
  · exact ⟨fun _ _ => rfl, nofun⟩
  · exact ⟨fun _ _ => rfl, nofun⟩
  · exact ⟨nofun, fun _ _ => ⟨⟨symbols, rfl⟩, exports, rfl⟩⟩

end MibLinker.Linking

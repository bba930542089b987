import TypeBounds.Expr.Reader

/-! # What readers do before given tokens

A reader finds something and leaves what comes after it, or skips what it does not start
with, or fails after a few tokens. Positions and noted errors never change which of these
happens, so the statements are about the lexemes that are left.
-/

namespace TypeBounds

@[simp] theorem Progress.rest_note (p : Progress) (e : ReadError) : (p.note e).rest = p.rest := by
  unfold note
  split <;> rfl

@[simp] theorem Progress.rest_learn (p branch : Progress) (e : ReadError) :
    (p.learn branch e).rest = p.rest := by
  unfold learn
  split
  · rfl
  · split <;> rfl

@[simp] theorem Progress.rest_accept (p branch : Progress) :
    (p.accept branch).rest = branch.rest := by
  simp only [accept]
  split <;> rfl

def Progress.lexemes (p : Progress) : List Lexeme := p.rest.map (·.lexeme)

@[simp] theorem Progress.lexemes_note (p : Progress) (e : ReadError) :
    (p.note e).lexemes = p.lexemes := by
  simp [lexemes]

@[simp] theorem Progress.lexemes_learn (p branch : Progress) (e : ReadError) :
    (p.learn branch e).lexemes = p.lexemes := by
  simp [lexemes]

@[simp] theorem Progress.lexemes_accept (p branch : Progress) :
    (p.accept branch).lexemes = branch.lexemes := by
  simp [lexemes]

namespace Reader

variable {α β : Type}

/-- Before `before` the reader finds something good and leaves `after`. -/
def Finds (r : Reader α) (before after : List Lexeme) (good : α → Prop) : Prop :=
  ∀ p : Progress, p.lexemes = before →
    ∃ a q, r p = (.found a, q) ∧ q.lexemes = after ∧ good a

/-- The reader does not start with what is in `before`. -/
def Skips (r : Reader α) (before : List Lexeme) : Prop :=
  ∀ p : Progress, p.lexemes = before → r p = (.nothing, p)

/-- Before `before` the reader fails with at most `n` tokens behind it. -/
def Fails (r : Reader α) (before : List Lexeme) (n : Nat) : Prop :=
  ∀ p : Progress, p.lexemes = before → ∃ e q, r p = (.failed e, q) ∧ q.cursor ≤ p.cursor + n

/-- Whoever tries the reader on a branch goes back. -/
def Declines (r : Reader α) (before : List Lexeme) : Prop := r.Skips before ∨ r.Fails before 2

section

variable {r first : Reader α} {next : α → Reader β} {before mid after : List Lexeme}
  {good : α → Prop} {good' : β → Prop} {n : Nat}

theorem finds_pure {a : α} (holds : good a) : (Pure.pure a : Reader α).Finds after after good := by
  intro p here
  exact ⟨a, p, rfl, here, holds⟩

theorem Finds.mono {weaker : α → Prop} (finds : r.Finds before after good)
    (le : ∀ a, good a → weaker a) : r.Finds before after weaker := by
  intro p here
  obtain ⟨a, q, found, there, holds⟩ := finds p here
  exact ⟨a, q, found, there, le a holds⟩

theorem Finds.bind (finds : first.Finds before mid good)
    (others : ∀ a, good a → (next a).Finds mid after good') :
    (first >>= next).Finds before after good' := by
  intro p here
  obtain ⟨a, q, found, there, holds⟩ := finds p here
  obtain ⟨b, q', found', there', holds'⟩ := others a holds q there
  refine ⟨b, q', ?_, there', holds'⟩
  show Reader.bind first next p = _
  simp only [Reader.bind, found, found']

theorem finds_token (accepts : Lexeme → Option α) {l : Lexeme} {a : α}
    (accepted : accepts l = some a) : (token accepts).Finds (l :: after) after (· = a) := by
  intro p here
  obtain ⟨rest, stop, cursor, deepest, depth⟩ := p
  cases rest with
  | nil => cases here
  | cons t rest =>
      obtain ⟨head, tail⟩ := List.cons.inj here
      refine ⟨a, ⟨rest, stop, cursor + 1, deepest, depth⟩, ?_, tail, rfl⟩
      simp only [token, head, accepted]

theorem finds_exactly (l : Lexeme) : (exactly l).Finds (l :: after) after fun _ => True := by
  intro p here
  obtain ⟨a, q, found, there, -⟩ :=
    finds_token (fun m => if m = l then some () else none) (if_pos rfl) p here
  exact ⟨a, q, found, there, trivial⟩

theorem finds_ident (name : String) : ident.Finds (.ident name :: after) after (· = name) :=
  finds_token _ rfl

theorem finds_here : here.Finds after after fun _ => True :=
  fun p there => ⟨p.position, p, rfl, there, trivial⟩

theorem Finds.expect {needed : String} (finds : r.Finds before after good) :
    (expect needed r).Finds before after good := by
  intro p here
  obtain ⟨a, q, found, there, holds⟩ := finds p here
  exact ⟨a, q, by simp only [Reader.expect, found], there, holds⟩

theorem Finds.rule (finds : r.Finds before after good) : (rule r).Finds before after good := by
  intro p here
  obtain ⟨a, q, found, there, holds⟩ := finds p here
  exact ⟨a, q, by simp only [Reader.rule, found], there, holds⟩

theorem Finds.optional (finds : r.Finds before after good) :
    (optional r).Finds before after fun o => ∃ a, o = some a ∧ good a := by
  intro p here
  obtain ⟨a, q, found, there, holds⟩ := finds p here
  refine ⟨some a, p.accept q, by simp only [Reader.optional, found], ?_, a, rfl, holds⟩
  rw [Progress.lexemes_accept, there]

theorem Finds.firstOf (finds : r.Finds before after good) (others : List (Reader α))
    (best : Option ReadError) (farthest : Nat) :
    (firstOf (r :: others) best farthest).Finds before after good := by
  intro p here
  obtain ⟨a, q, found, there, holds⟩ := finds p here
  refine ⟨a, p.accept q, by simp only [Reader.firstOf, found], ?_, holds⟩
  rw [Progress.lexemes_accept, there]

theorem skips_exactly {l : Lexeme} (other : before.head? ≠ some l) : (exactly l).Skips before := by
  intro p here
  obtain ⟨rest, stop, cursor, deepest, depth⟩ := p
  cases rest with
  | nil => rfl
  | cons t rest =>
      have apart : t.lexeme ≠ l := by
        rintro rfl
        exact other (by rw [← here]; rfl)
      simp only [exactly, token, if_neg apart]

theorem skips_ident (other : ∀ name, before.head? ≠ some (.ident name)) : ident.Skips before := by
  intro p here
  obtain ⟨rest, stop, cursor, deepest, depth⟩ := p
  cases rest with
  | nil => rfl
  | cons t rest =>
      obtain ⟨l, position⟩ := t
      cases l with
      | ident name => exact (other name (by rw [← here]; rfl)).elim
      | _ => rfl

theorem Skips.bind (skips : first.Skips before) : (first >>= next).Skips before := by
  intro p here
  show Reader.bind first next p = _
  simp only [Reader.bind, skips p here]

theorem Skips.here_bind {next : Position → Reader β} (skips : ∀ place, (next place).Skips before) :
    (here >>= next).Skips before :=
  fun p there => skips p.position p there

theorem Skips.rule (skips : r.Skips before) : (rule r).Skips before := by
  intro p here
  simp only [Reader.rule, skips p here]

theorem skips_firstOf {others : List (Reader α)} (farthest : Nat)
    (skips : ∀ r ∈ others, r.Skips before) : (firstOf others none farthest).Skips before := by
  induction others with
  | nil => exact fun p _ => rfl
  | cons r others ih =>
      rw [List.forall_mem_cons] at skips
      intro p here
      simp only [Reader.firstOf, skips.1 p here]
      exact ih skips.2 p here

theorem Skips.expect (needed : String) (skips : r.Skips before) :
    (expect needed r).Fails before 0 := by
  intro p here
  refine ⟨p.unexpectedFor needed, p, ?_, Nat.le_refl _⟩
  simp only [Reader.expect, skips p here]

theorem Fails.bind (fails : first.Fails before n) : (first >>= next).Fails before n := by
  intro p here
  obtain ⟨e, q, failed, near⟩ := fails p here
  refine ⟨e, q, ?_, near⟩
  show Reader.bind first next p = _
  simp only [Reader.bind, failed]

theorem Fails.here_bind {next : Position → Reader β}
    (fails : ∀ place, (next place).Fails before n) : (here >>= next).Fails before n :=
  fun p there => fails p.position p there

theorem Fails.exactly_bind {next : Unit → Reader β} {l : Lexeme}
    (fails : (next ()).Fails before n) : (exactly l >>= next).Fails (l :: before) (n + 1) := by
  intro p here
  obtain ⟨rest, stop, cursor, deepest, depth⟩ := p
  cases rest with
  | nil => cases here
  | cons t rest =>
      obtain ⟨head, tail⟩ := List.cons.inj here
      obtain ⟨e, q, failed, near⟩ := fails ⟨rest, stop, cursor + 1, deepest, depth⟩ tail
      refine ⟨e, q, ?_, by simp only at near ⊢; omega⟩
      show Reader.bind _ next _ = _
      simp only [Reader.bind, exactly, token, head, if_pos, failed]

theorem Fails.rule (fails : r.Fails before n) : (rule r).Fails before n := by
  intro p here
  obtain ⟨e, q, failed, near⟩ := fails p here
  refine ⟨e, q.note e, by simp only [Reader.rule, failed], ?_⟩
  unfold Progress.note
  split <;> exact near

theorem Fails.declines (fails : r.Fails before n) (soon : n ≤ 2) : r.Declines before := by
  refine .inr fun p here => ?_
  obtain ⟨e, q, failed, near⟩ := fails p here
  exact ⟨e, q, failed, by omega⟩

theorem Declines.optional (declines : r.Declines before) :
    (optional r).Finds before before (· = none) := by
  intro p here
  rcases declines with skips | fails
  · refine ⟨none, p.accept p, by simp only [Reader.optional, skips p here], ?_, rfl⟩
    rw [Progress.lexemes_accept, here]
  · obtain ⟨e, q, failed, near⟩ := fails p here
    have back : p.isBeyond q = false := by simpa [Progress.isBeyond] using near
    refine ⟨none, (p.note e).learn q e, ?_, ?_, rfl⟩
    · simp only [Reader.optional, failed, back, Bool.false_eq_true, if_false]
    · rw [Progress.lexemes_learn, Progress.lexemes_note, here]

theorem Declines.firstOf {others : List (Reader α)} (declines : r.Declines before)
    (finds : ∀ best farthest, (firstOf others best farthest).Finds before after good)
    (best : Option ReadError) (farthest : Nat) :
    (firstOf (r :: others) best farthest).Finds before after good := by
  intro p here
  rcases declines with skips | fails
  · simp only [Reader.firstOf, skips p here]
    exact finds best farthest p here
  · obtain ⟨e, q, failed, near⟩ := fails p here
    have back : p.isBeyond q = false := by simpa [Progress.isBeyond] using near
    have here' : (p.learn q e).lexemes = before := by rw [Progress.lexemes_learn, here]
    simp only [Reader.firstOf, failed, back, Bool.false_eq_true, if_false]
    split
    · exact finds _ _ _ here'
    · exact finds _ _ _ here'

end

/-- What the reader finds is good for the tokens that it uses up. It is `sure` if it fails rather
    than find nothing, and when it does find nothing it uses up no tokens. -/
structure Takes (sure : Bool) (r : Reader α) (good : List Token → α → Prop) : Prop where
  found : ∀ {p q : Progress} {a : α}, r p = (.found a, q) →
    ∃ used, p.rest = used ++ q.rest ∧ good used a
  nothing : ∀ {p q : Progress}, r p = (.nothing, q) → sure = false ∧ q.rest = p.rest

section

variable {sure : Bool} {r first : Reader α} {next : α → Reader β} {good : List Token → α → Prop}
  {good' : List Token → β → Prop}

theorem takes_pure {a : α} (holds : good [] a) : Takes sure (Pure.pure a : Reader α) good where
  found := by
    rintro p q b ⟨⟩
    exact ⟨[], rfl, holds⟩
  nothing := by
    rintro p q ⟨⟩

theorem Takes.mono {weaker : List Token → α → Prop} (takes : Takes sure r good)
    (le : ∀ used a, good used a → weaker used a) : Takes sure r weaker where
  found result := by
    obtain ⟨used, left, holds⟩ := takes.found result
    exact ⟨used, left, le used _ holds⟩
  nothing := takes.nothing

/-- Whatever comes after something that was found has to be sure. -/
theorem Takes.bind (takes : Takes sure first good)
    (others : ∀ used a, good used a → Takes true (next a) fun more b => good' (used ++ more) b) :
    Takes sure (first >>= next) good' where
  found {p q b} result := by
    replace result : Reader.bind first next p = (.found b, q) := result
    unfold Reader.bind at result
    split at result
    · rename_i a p' head
      obtain ⟨used, left, holds⟩ := takes.found head
      obtain ⟨more, left', holds'⟩ := (others used a holds).found result
      exact ⟨used ++ more, by rw [left, left', List.append_assoc], holds'⟩
    · cases result
    · cases result
  nothing {p q} result := by
    replace result : Reader.bind first next p = (.nothing, q) := result
    unfold Reader.bind at result
    split at result
    · rename_i a p' head
      obtain ⟨used, -, holds⟩ := takes.found head
      obtain ⟨sure, -⟩ := (others used a holds).nothing result
      cases sure
    · rename_i p' head
      cases result
      exact takes.nothing head
    · cases result

theorem Takes.here_bind {next : Position → Reader β}
    (takes : ∀ place, Takes sure (next place) fun used b =>
      (∀ t ∈ used.head?, t.position = place) → good' used b) :
    Takes sure (here >>= next) good' where
  found {p q b} result := by
    obtain ⟨used, left, holds⟩ := (takes p.position).found result
    refine ⟨used, left, holds fun t first => ?_⟩
    obtain ⟨more, rfl⟩ := List.head?_eq_some_iff.mp first
    rw [Progress.position, left, List.cons_append]
  nothing {p q} result := (takes p.position).nothing result

theorem takes_token (accepts : Lexeme → Option α) :
    Takes false (token accepts) fun used a => ∃ t, used = [t] ∧ accepts t.lexeme = some a where
  found {p q a} result := by
    unfold token at result
    split at result
    · cases result
    · rename_i t rest left
      split at result
      · rename_i taken
        cases result
        exact ⟨[t], left, t, rfl, taken⟩
      · cases result
  nothing {p q} result := by
    unfold token at result
    split at result
    · cases result
      exact ⟨rfl, rfl⟩
    · split at result
      · cases result
      · cases result
        exact ⟨rfl, rfl⟩

theorem takes_exactly (l : Lexeme) :
    Takes false (exactly l) fun used _ => ∃ place, used = [⟨l, place⟩] := by
  refine (takes_token _).mono ?_
  rintro _ _ ⟨⟨m, place⟩, rfl, accepted⟩
  split at accepted
  next same => exact ⟨place, by rw [← same]⟩
  next => cases accepted

theorem takes_ident :
    Takes false ident fun used name => ∃ place, used = [⟨.ident name, place⟩] := by
  refine (takes_token _).mono ?_
  rintro _ name ⟨⟨l, place⟩, rfl, accepted⟩
  cases l with
  | ident =>
      cases accepted
      exact ⟨place, rfl⟩
  | _ => cases accepted

theorem Takes.expect {needed : String} (takes : Takes sure r good) :
    Takes true (expect needed r) good where
  found {p q a} result := by
    unfold Reader.expect at result
    split at result
    · cases result
    · exact takes.found result
  nothing {p q} result := by
    unfold Reader.expect at result
    split at result
    · cases result
    · rename_i other
      exact (other q result).elim

theorem Takes.rule (takes : Takes sure r good) : Takes sure (rule r) good where
  found {p q a} result := by
    unfold Reader.rule at result
    split at result
    · cases result
    · exact takes.found result
  nothing {p q} result := by
    unfold Reader.rule at result
    split at result
    · cases result
    · exact takes.nothing result

theorem Takes.optional (takes : Takes sure r good) :
    Takes true (optional r) fun used o => o = none ∧ used = [] ∨ ∃ a, o = some a ∧ good used a where
  found {p q o} result := by
    unfold Reader.optional at result
    split at result
    · rename_i a branch head
      cases result
      obtain ⟨used, left, holds⟩ := takes.found head
      exact ⟨used, by simpa using left, .inr ⟨a, rfl, holds⟩⟩
    · rename_i branch head
      cases result
      exact ⟨[], by simpa using (takes.nothing head).2.symm, .inl ⟨rfl, rfl⟩⟩
    · simp only at result
      split at result
      · cases result
      · cases result
        exact ⟨[], by simp, .inl ⟨rfl, rfl⟩⟩
  nothing {p q} result := by
    unfold Reader.optional at result
    split at result
    · cases result
    · cases result
    · simp only at result
      split at result <;> cases result

theorem Takes.many {goods : List Token → List α → Prop} (takes : Takes sure r good)
    (none : goods [] []) (more : ∀ {used others a as}, good used a → goods others as →
      goods (used ++ others) (a :: as)) (fuel : Nat) : Takes true (many r fuel) goods := by
  induction fuel with
  | zero => exact takes_pure none
  | succ fuel ih =>
      apply takes.optional.bind
      rintro used _ (⟨rfl, rfl⟩ | ⟨a, rfl, holds⟩)
      · exact takes_pure none
      · apply ih.bind
        intro others as hold
        apply takes_pure
        rw [List.append_nil]
        exact more holds hold

theorem takes_firstOf {others : List (Reader α)} (takes : ∀ r ∈ others, Takes false r good)
    (best : Option ReadError) (farthest : Nat) :
    Takes false (firstOf others best farthest) good := by
  induction others generalizing best farthest with
  | nil =>
      cases best with
      | none =>
          refine ⟨by rintro p q a ⟨⟩, ?_⟩
          rintro p q ⟨⟩
          exact ⟨rfl, rfl⟩
      | some e => exact ⟨by rintro p q a ⟨⟩, by rintro p q ⟨⟩⟩
  | cons r others ih =>
      rw [List.forall_mem_cons] at takes
      have later := ih takes.2
      constructor
      · intro p q a result
        unfold Reader.firstOf at result
        simp only at result
        split at result
        · rename_i branch head
          cases result
          simpa using takes.1.found head
        · exact (later _ _).found result
        · split at result
          · cases result
          · split at result
            · simpa using (later _ _).found result
            · simpa using (later _ _).found result
      · intro p q result
        unfold Reader.firstOf at result
        simp only at result
        split at result
        · cases result
        · exact (later _ _).nothing result
        · split at result
          · cases result
          · split at result
            · simpa using (later _ _).nothing result
            · simpa using (later _ _).nothing result

end

end Reader

/-- A whole text is read when the grammar finds something and leaves nothing. -/
theorem readWhole_eq_ok_iff {α : Type} {grammar : Nat → Reader α} {s : String} {a : α} :
    readWhole grammar s = .ok a ↔ ∃ tokens stop p, Token.scan s = .ok (tokens, stop) ∧
      grammar (tokens.length + 1) (.start tokens stop) = (.found a, p) ∧ p.rest = [] := by
  unfold readWhole
  cases scanned : Token.scan s with
  | error e => simp [bind, Except.bind]
  | ok pair =>
      obtain ⟨tokens, stop⟩ := pair
      simp only [bind, Except.bind, Except.ok.injEq, Prod.mk.injEq]
      constructor
      · intro found
        refine ⟨tokens, stop, ?_⟩
        split at found
        · cases found
        · rename_i b p result
          split at found
          · rename_i empty
            cases found
            exact ⟨p, ⟨rfl, rfl⟩, result, List.isEmpty_iff.mp empty⟩
          · cases found
        · cases found
      · rintro ⟨_, _, p, ⟨rfl, rfl⟩, result, empty⟩
        rw [result]
        simp [empty, pure, Except.pure]

end TypeBounds

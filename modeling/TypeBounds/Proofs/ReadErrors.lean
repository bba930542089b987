import TypeBounds.Expr.Reader

/-! # What errors of readers are about

A reader goes through its tokens from left to right and may go back, but it never leaves
them. Wherever it fails, the error names the next token there, or the end of the text, and
has its place. The same holds of the deepest error that is kept on the way.
-/

namespace TypeBounds

/-- The error is one of meeting what comes next, a token or the end, somewhere on the way. -/
def ReadError.Meets (tokens : List Token) (stop : Position) (e : ReadError) : Prop :=
  ∃ rest more, rest <:+ tokens ∧ e.position = (Progress.start rest stop).position ∧
    e.message = "unexpected token " ++ Text.quote (Progress.start rest stop).nextText ++ more

/-- On the way through the tokens. -/
structure Progress.IsOn (tokens : List Token) (stop : Position) (p : Progress) : Prop where
  left : p.rest <:+ tokens
  ends : p.stop = stop
  deepest : ∀ e, p.deepest = some e → e.Meets tokens stop

namespace Progress.IsOn

variable {tokens : List Token} {stop : Position} {p branch : Progress} {e : ReadError}

theorem start (tokens : List Token) (stop : Position) : (start tokens stop).IsOn tokens stop :=
  ⟨List.suffix_rfl, rfl, nofun⟩

theorem unexpected (on : p.IsOn tokens stop) : p.unexpected.Meets tokens stop := by
  obtain ⟨rest, _, cursor, deepest, depth⟩ := p
  obtain ⟨left, rfl, -⟩ := on
  exact ⟨rest, "", left, rfl, String.append_empty.symm⟩

theorem unexpectedFor (on : p.IsOn tokens stop) (needed : String) :
    (p.unexpectedFor needed).Meets tokens stop := by
  obtain ⟨rest, _, cursor, deepest, depth⟩ := p
  obtain ⟨left, rfl, -⟩ := on
  refine ⟨rest, s!" (expected {needed})", left, rfl, ?_⟩
  simp only [Progress.unexpectedFor, toString, String.append_assoc]
  rfl

theorem note (on : p.IsOn tokens stop) (meets : e.Meets tokens stop) :
    (p.note e).IsOn tokens stop := by
  unfold Progress.note
  split
  · exact ⟨on.left, on.ends, fun _ same => Option.some.inj same ▸ meets⟩
  · exact on

theorem accept (on : p.IsOn tokens stop) (ahead : branch.IsOn tokens stop) :
    (p.accept branch).IsOn tokens stop := by
  simp only [Progress.accept]
  split
  · exact ⟨ahead.left, on.ends, ahead.deepest⟩
  · exact ⟨ahead.left, on.ends, on.deepest⟩

theorem learn (on : p.IsOn tokens stop) (ahead : branch.IsOn tokens stop)
    (meets : e.Meets tokens stop) : (p.learn branch e).IsOn tokens stop := by
  unfold Progress.learn
  split
  · exact ⟨on.left, on.ends, ahead.deepest⟩
  · split
    · exact ⟨on.left, on.ends, fun _ same => Option.some.inj same ▸ meets⟩
    · exact on

end Progress.IsOn

namespace Reader

variable {α β : Type} {tokens : List Token} {stop : Position}

/-- The reader is still on its way, and if it failed then because of what it met there. -/
def Arrives (tokens : List Token) (stop : Position) : Reading α × Progress → Prop
  | (.failed e, p) => p.IsOn tokens stop ∧ e.Meets tokens stop
  | (_, p) => p.IsOn tokens stop

/-- The reader does not leave its way. -/
def Keeps (tokens : List Token) (stop : Position) (r : Reader α) : Prop :=
  ∀ p, p.IsOn tokens stop → Arrives tokens stop (r p)

variable {r first : Reader α} {next : α → Reader β}

theorem keeps_pure (a : α) : Keeps tokens stop (Pure.pure a : Reader α) := fun _ on => on

theorem keeps_here : Keeps tokens stop here := fun _ on => on

theorem keeps_token (accepts : Lexeme → Option α) : Keeps tokens stop (token accepts) := by
  intro p on
  unfold token
  split
  · exact on
  · rename_i t rest left
    split
    · exact ⟨(List.suffix_cons t rest).trans (left ▸ on.left), on.ends, on.deepest⟩
    · exact on

theorem keeps_exactly (l : Lexeme) : Keeps tokens stop (exactly l) := keeps_token _

theorem keeps_ident : Keeps tokens stop ident := keeps_token _

theorem Keeps.bind (keeps : Keeps tokens stop first) (others : ∀ a, Keeps tokens stop (next a)) :
    Keeps tokens stop (first >>= next) := by
  intro p on
  have head := keeps p on
  show Arrives tokens stop (Reader.bind first next p)
  unfold Reader.bind
  split
  · rename_i a q found
    rw [found] at head
    exact others a q head
  · rename_i q nothing
    rw [nothing] at head
    exact head
  · rename_i e q failed
    rw [failed] at head
    exact head

theorem Keeps.expect (needed : String) (keeps : Keeps tokens stop r) :
    Keeps tokens stop (expect needed r) := by
  intro p on
  have result := keeps p on
  unfold Reader.expect
  split
  · rename_i q nothing
    rw [nothing] at result
    exact ⟨result, Progress.IsOn.unexpectedFor result needed⟩
  · exact result

theorem Keeps.rule (keeps : Keeps tokens stop r) : Keeps tokens stop (rule r) := by
  intro p on
  have result := keeps p on
  unfold Reader.rule
  split
  · rename_i e q failed
    rw [failed] at result
    exact ⟨result.1.note result.2, result.2⟩
  · exact result

theorem Keeps.optional (keeps : Keeps tokens stop r) : Keeps tokens stop (optional r) := by
  intro p on
  have result := keeps p on
  unfold Reader.optional
  split
  · rename_i a q found
    rw [found] at result
    exact on.accept result
  · rename_i q nothing
    rw [nothing] at result
    exact on.accept result
  · rename_i e q failed
    rw [failed] at result
    obtain ⟨ahead, meets⟩ := result
    have learnt := (on.note meets).learn ahead meets
    simp only
    split
    · exact ⟨learnt.accept ahead, meets⟩
    · exact learnt

theorem Keeps.many (keeps : Keeps tokens stop r) (fuel : Nat) :
    Keeps tokens stop (many r fuel) := by
  induction fuel with
  | zero => exact keeps_pure []
  | succ fuel ih =>
      apply keeps.optional.bind
      intro found
      cases found with
      | none => exact keeps_pure []
      | some a => exact ih.bind fun as => keeps_pure (a :: as)

theorem keeps_firstOf {others : List (Reader α)} (keeps : ∀ r ∈ others, Keeps tokens stop r)
    {best : Option ReadError} (known : ∀ e, best = some e → e.Meets tokens stop) (farthest : Nat) :
    Keeps tokens stop (firstOf others best farthest) := by
  induction others generalizing best farthest with
  | nil =>
      intro p on
      cases best with
      | none => exact on
      | some e => exact ⟨on.note (known e rfl), known e rfl⟩
  | cons r others ih =>
      rw [List.forall_mem_cons] at keeps
      intro p on
      have result := keeps.1 p on
      unfold Reader.firstOf
      simp only
      split
      · rename_i a q found
        rw [found] at result
        exact on.accept result
      · exact ih keeps.2 known farthest p on
      · rename_i e q failed
        rw [failed] at result
        obtain ⟨ahead, meets⟩ := result
        have learnt := on.learn ahead meets
        split
        · exact ⟨learnt.accept ahead, meets⟩
        · split
          · exact ih keeps.2 (fun _ same => Option.some.inj same ▸ meets) _ _ learnt
          · exact ih keeps.2 known _ _ learnt

end Reader

section Grammar

open Reader

variable {tokens : List Token} {stop : Position} {type : Reader TypeExpr}

theorem TypeExpr.keeps_readMore (keeps : Keeps tokens stop type) (fuel : Nat) :
    Keeps tokens stop (readMore type fuel) :=
  ((keeps_exactly .comma).bind fun _ => keeps.expect _).many fuel

theorem TypeExpr.keeps_readCallable (keeps : Keeps tokens stop type) (fuel : Nat) :
    Keeps tokens stop (readCallable type fuel) := by
  refine (keeps_here.bind fun place => ?_).rule
  refine (keeps_exactly _).bind fun _ => ((keeps_exactly _).expect _).bind fun _ => ?_
  have params : Keeps tokens stop (do
      let first ← type
      let others ← readMore type fuel
      return first :: others) :=
    keeps.bind fun first => (keeps_readMore keeps fuel).bind fun others => keeps_pure _
  refine params.optional.bind fun params => ((keeps_exactly _).expect _).bind fun _ => ?_
  exact ((keeps_exactly _).expect _).bind fun _ => (keeps.expect _).bind fun result => keeps_pure _

theorem TypeExpr.keeps_readTuple (keeps : Keeps tokens stop type) (fuel : Nat) :
    Keeps tokens stop (readTuple type fuel) := by
  refine (keeps_here.bind fun place => (keeps_exactly _).bind fun _ => ?_).rule
  have items : Keeps tokens stop (do
      let first ← type
      let others ← readMore type fuel
      let _ ← optional (exactly .comma)
      return first :: others) :=
    keeps.bind fun first => (keeps_readMore keeps fuel).bind fun others =>
      (keeps_exactly _).optional.bind fun _ => keeps_pure _
  exact items.optional.bind fun items => ((keeps_exactly _).expect _).bind fun _ => keeps_pure _

theorem TypeExpr.keeps_readNamed (keeps : Keeps tokens stop type) (fuel : Nat) :
    Keeps tokens stop (readNamed type fuel) := by
  refine (keeps_here.bind fun place => keeps_ident.bind fun name => ?_).rule
  have args : Keeps tokens stop (do
      exactly .leftBracket
      let first ← expect "TypeExpr (\",\" TypeExpr)* \"]\"" type
      let others ← readMore type fuel
      expect "\"]\"" (exactly .rightBracket)
      return first :: others) :=
    (keeps_exactly _).bind fun _ => (keeps.expect _).bind fun first =>
      (keeps_readMore keeps fuel).bind fun others =>
        ((keeps_exactly _).expect _).bind fun _ => keeps_pure _
  exact args.optional.bind fun args => keeps_pure _

theorem TypeExpr.keeps_readNested (fuel : Nat) : Keeps tokens stop (readNested fuel) := by
  induction fuel with
  | zero => exact fun _ on => on
  | succ fuel ih =>
      refine (keeps_firstOf ?_ (by simp) 0).rule
      simp only [List.mem_cons, List.not_mem_nil, or_false, forall_eq_or_imp, forall_eq]
      exact ⟨keeps_readCallable ih fuel, keeps_readTuple ih fuel, keeps_readNamed ih fuel⟩

theorem ConstraintExpr.keeps_readWith (keeps : Keeps tokens stop type) :
    Keeps tokens stop (readWith type) :=
  (keeps_here.bind fun _ => keeps_ident.bind fun _ => ((keeps_token _).expect _).bind fun _ =>
    (keeps.expect _).bind fun _ => keeps_pure _).rule

end Grammar

/-- A text that does not scan is reported as such; otherwise something is met on the way. -/
theorem error_of_readWhole {α : Type} {grammar : Nat → Reader α} {s : String} {e : ReadError}
    (keeps : ∀ tokens stop fuel, Reader.Keeps tokens stop (grammar fuel))
    (failed : readWhole grammar s = .error e) : Token.scan s = .error e ∨
      ∃ tokens stop, Token.scan s = .ok (tokens, stop) ∧ e.Meets tokens stop := by
  unfold readWhole at failed
  cases scanned : Token.scan s with
  | error e' =>
      rw [scanned] at failed
      cases failed
      exact .inl rfl
  | ok pair =>
      obtain ⟨tokens, stop⟩ := pair
      refine .inr ⟨tokens, stop, rfl, ?_⟩
      simp only [scanned, bind, Except.bind] at failed
      have result := keeps tokens stop (tokens.length + 1) _ (.start tokens stop)
      have left {p : Progress} (on : p.IsOn tokens stop) :
          (readWhole.leftOver p).Meets tokens stop := by
        unfold readWhole.leftOver
        split
        · exact on.unexpected
        · cases deepest : p.deepest with
          | none => exact on.unexpected
          | some e => exact on.deepest e deepest
      split at failed
      · rename_i e' q reading
        rw [reading] at result
        cases failed
        exact result.2
      · rename_i a q reading
        rw [reading] at result
        split at failed
        · cases failed
        · cases failed
          exact left result
      · rename_i q reading
        rw [reading] at result
        cases failed
        exact left result

end TypeBounds

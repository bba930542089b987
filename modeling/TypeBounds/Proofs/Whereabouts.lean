import Mathlib.Data.List.Perm.Subperm
import TypeBounds.Proofs.Faults
import TypeBounds.Proofs.Loading
import TypeBounds.Proofs.ReadErrors

/-! # Where mistakes are

Each mistake in a constraint is about something at an offset of its text: a token that is no
good there, a name that stands for nothing, the end of the text, or characters that are no
token. Its position is the place that many characters after the start of the text.
-/

namespace TypeBounds

/-- The place that many characters into a text. -/
def Position.into (cs : List Char) (i : Nat) : Position := Position.start.advanceAll (cs.take i)

/-- The text splits into tokens, and one of them is at the offset. -/
structure Token.IsAt (cs : List Char) (i : Nat) (l : Lexeme) : Prop where
  token : ∃ tokens stop, Splits .start cs tokens stop ∧ ⟨l, Position.into cs i⟩ ∈ tokens
  inside : i ≤ cs.length
  text : l.text.toList <+: cs.drop i

/-- An identifier, a blank or a sign starts with these characters. -/
inductive Token.Starts : List Char → Prop where
  | ident {c : Char} {rest : List Char} (start : isIdentStart c) : Starts (c :: rest)
  | blank {c : Char} {rest : List Char} (blank : isBlank c) : Starts (c :: rest)
  | sign {l : Lexeme} {rest : List Char} (other : ∀ name, l ≠ .ident name) :
      Starts (l.text.toList ++ rest)

/-- What is at an offset of a text is what a fault is about. -/
inductive Fault.IsAbout (cs : List Char) : Fault → Nat → Prop where
  /-- A name. -/
  | name {f : Fault} {name : String} {i : Nat} (named : f.name? = some name)
      (token : Token.IsAt cs i (.ident name)) : IsAbout cs f i
  /-- A token that does not belong where it is. -/
  | unexpected {l : Lexeme} {i : Nat} (source more : String) (token : Token.IsAt cs i l) :
      IsAbout cs (.parse source ("unexpected token " ++ Text.quote l.text ++ more)) i
  /-- The end of a text that has to go on. -/
  | ended (source more : String) :
      IsAbout cs (.parse source ("unexpected token " ++ Text.quote "<EOF>" ++ more)) cs.length
  /-- Characters that are no token. -/
  | invalid {i : Nat} (source : String) (some : i < cs.length) (none : ¬ Token.Starts (cs.drop i)) :
      IsAbout cs (.parse source (Token.invalidInput (.into cs i) (cs.drop i)).message) i

theorem Fault.IsAbout.le_length {cs : List Char} {f : Fault} {i : Nat} (about : f.IsAbout cs i) :
    i ≤ cs.length := by
  cases about with
  | name _ token | unexpected _ _ token => exact token.inside
  | ended => exact Nat.le_refl _
  | invalid _ some _ => exact Nat.le_of_lt some

/-- The mistake is about what is at the offset of the text, and says where that is. -/
structure Mistake.IsAt (m : Mistake) (source : Placed) (i : Nat) : Prop where
  about : m.fault.IsAbout source.text.toList i
  position : m.position = source.placement.locate (.into source.text.toList i)

theorem Position.advanceAll_append (p : Position) (cs ds : List Char) :
    p.advanceAll (cs ++ ds) = (p.advanceAll cs).advanceAll ds :=
  List.foldl_append

namespace Token

variable {position stop : Position} {c : Char} {cs : List Char} {tokens : List Token}

/-- Behind `position`, the text goes on with the token after `i` characters. -/
structure Follows (position : Position) (cs : List Char) (t : Token) (i : Nat) : Prop where
  inside : i ≤ cs.length
  place : t.position = position.advanceAll (cs.take i)
  text : t.lexeme.text.toList <+: cs.drop i

theorem Follows.append {front rest : List Char} {t : Token} {i : Nat}
    (follows : Follows (position.advanceAll front) rest t i) :
    Follows position (front ++ rest) t (front.length + i) where
  inside := by
    rw [List.length_append]
    exact Nat.add_le_add_left follows.inside _
  place := by
    rw [List.take_length_add_append, Position.advanceAll_append]
    exact follows.place
  text := by
    rw [List.drop_length_add_append]
    exact follows.text

theorem Splits.exists_follows (splits : Splits position cs tokens stop) {t : Token}
    (member : t ∈ tokens) : ∃ i, Follows position cs t i := by
  induction splits with
  | nil => cases member
  | ident _ _ _ ih | sign _ _ ih =>
      rcases List.mem_cons.mp member with rfl | later
      · exact ⟨0, Nat.zero_le _, rfl, List.prefix_append _ _⟩
      · obtain ⟨i, follows⟩ := ih later
        exact ⟨_, follows.append⟩
  | blanks _ _ _ _ ih =>
      obtain ⟨i, follows⟩ := ih member
      exact ⟨_, follows.append⟩

theorem Splits.stop_eq (splits : Splits position cs tokens stop) :
    stop = position.advanceAll cs := by
  induction splits with
  | nil => rfl
  | ident _ _ _ ih | blanks _ _ _ _ ih | sign _ _ ih =>
      rw [ih, Position.advanceAll_append]

theorem Splits.nodup_positions (splits : Splits position cs tokens stop) :
    (tokens.map (·.position)).Nodup := by
  refine splits.pairwise_positions.imp fun {p q} before same => ?_
  rw [same] at before
  simp [Position.Before] at before

theorem Splits.isAt (splits : Splits .start cs tokens stop) {t : Token} (member : t ∈ tokens) :
    ∃ i, t.position = .into cs i ∧ IsAt cs i t.lexeme := by
  obtain ⟨i, inside, place, text⟩ := splits.exists_follows member
  obtain ⟨l, place'⟩ := t
  obtain rfl : place' = .into cs i := place
  exact ⟨i, rfl, ⟨tokens, stop, splits, member⟩, inside, text⟩

theorem not_starts (ordinary : ¬ isIdentStart c) (solid : ¬ isBlank c)
    (none : sign? (c :: cs) = none) : ¬ Starts (c :: cs) := by
  intro starts
  generalize same : c :: cs = ds at starts none
  cases starts with
  | ident start =>
      obtain ⟨rfl, -⟩ := List.cons.inj same
      exact ordinary start
  | blank blank =>
      obtain ⟨rfl, -⟩ := List.cons.inj same
      exact solid blank
  | sign other =>
      rw [sign?_append other] at none
      cases none

/-- Scanning fails at the first characters that are no token. -/
structure FailsAt (position : Position) (cs : List Char) (e : ReadError) (i : Nat) : Prop where
  some : i < cs.length
  none : ¬ Starts (cs.drop i)
  error : e = invalidInput (position.advanceAll (cs.take i)) (cs.drop i)

theorem FailsAt.append {front rest : List Char} {e : ReadError} {i : Nat}
    (fails : FailsAt (position.advanceAll front) rest e i) :
    FailsAt position (front ++ rest) e (front.length + i) where
  some := by
    rw [List.length_append]
    exact Nat.add_lt_add_left fails.some _
  none := by
    rw [List.drop_length_add_append]
    exact fails.none
  error := by
    rw [List.take_length_add_append, List.drop_length_add_append, Position.advanceAll_append]
    exact fails.error

theorem eq_error_of_map {α β : Type} {f : α → β} {result : Except ReadError α} {e : ReadError}
    (failed : result.map f = .error e) : result = .error e := by
  cases result with
  | error e' =>
      cases failed
      rfl
  | ok a => cases failed

theorem exists_failsAt {e : ReadError} (failed : scanFrom position cs = .error e) :
    ∃ i, FailsAt position cs e i := by
  fun_induction scanFrom position cs with
  | case1 => cases failed
  | case2 position c rest start word ih =>
      have text : c :: rest = word ++ rest.dropWhile isIdentRest := by
        simp [word, List.takeWhile_append_dropWhile]
      rw [text]
      obtain ⟨i, fails⟩ := ih (eq_error_of_map failed)
      exact ⟨_, fails.append⟩
  | case3 position c rest start blank ih =>
      obtain ⟨i, fails⟩ := ih failed
      have behind : FailsAt (position.advanceAll [c]) rest e i := fails
      exact ⟨_, behind.append⟩
  | case4 position c rest start blank l rest' found ih =>
      rw [eq_of_sign? found]
      obtain ⟨i, fails⟩ := ih (eq_error_of_map failed)
      exact ⟨_, fails.append⟩
  | case5 position c rest start blank none =>
      cases failed
      exact ⟨0, Nat.succ_pos _, not_starts start blank none, rfl⟩

end Token

theorem ConstraintExpr.exists_isAt_of_read {s : String} {e : ReadError}
    (failed : ConstraintExpr.read s = .error e) (place : Placement) :
    ∃ i, (e.mistake place s).IsAt ⟨s, place⟩ i := by
  have keeps (tokens : List Token) (stop : Position) (fuel : Nat) :
      Reader.Keeps tokens stop (ConstraintExpr.readWith (TypeExpr.readNested fuel)) :=
    keeps_readWith (TypeExpr.keeps_readNested fuel)
  rcases error_of_readWhole keeps failed with scanned | ⟨tokens, stop, scanned, rest, more, meets⟩
  · obtain ⟨i, fails⟩ := Token.exists_failsAt scanned
    rw [fails.error]
    exact ⟨i, .invalid s fails.some fails.none, rfl⟩
  · obtain ⟨left, position, message⟩ := meets
    have splits := Token.splits_of_scanFrom scanned
    rw [ReadError.mistake, position, message]
    cases rest with
    | nil =>
        refine ⟨s.toList.length, .ended s more, ?_⟩
        show place.locate stop = place.locate _
        rw [splits.stop_eq, Position.into, List.take_length]
    | cons t rest =>
        obtain ⟨i, there, token⟩ := splits.isAt (left.subset List.mem_cons_self)
        refine ⟨i, .unexpected s more token, ?_⟩
        show place.locate t.position = place.locate _
        rw [there]

/-- The mistakes are about what is at these offsets, and no two of them are about the same. -/
structure Mistake.AllAt (source : Placed) (ms : List Mistake) (offsets : List Nat) : Prop where
  distinct : offsets.Nodup
  each : List.Forall₂ (fun m i => m.IsAt source i) ms offsets

/-- Mistakes about different tokens are at different offsets. -/
theorem Mistake.exists_allAt {source : Placed} {tokens named : List Token} {stop : Position}
    {ms : List Mistake} (splits : Token.Splits .start source.text.toList tokens stop)
    (names : List.Forall₂ (Names source.placement) ms named) (some : named.Subperm tokens) :
    ∃ offsets, AllAt source ms offsets := by
  have members : ∀ t ∈ named, t ∈ tokens := fun _ member => some.subset member
  have apart : (named.map (·.position)).Nodup := by
    obtain ⟨inOrder, perm, sublist⟩ := some
    rw [← (perm.map _).nodup_iff]
    exact splits.nodup_positions.sublist (sublist.map _)
  have found : ∃ offsets, List.Forall₂ (fun m i => m.IsAt source i) ms offsets ∧
      offsets.map (.into source.text.toList) = named.map (·.position) := by
    clear apart some
    induction names with
    | nil => exact ⟨[], .nil, rfl⟩
    | cons names _ ih =>
        rw [List.forall_mem_cons] at members
        obtain ⟨offsets, each, places⟩ := ih members.2
        obtain ⟨i, there, token⟩ := splits.isAt members.1
        obtain ⟨⟨name, lexeme, about⟩, position⟩ := names
        rw [lexeme] at token
        rw [there] at position
        refine ⟨i :: offsets, .cons ⟨.name about token, position⟩ each, ?_⟩
        rw [List.map_cons, List.map_cons, places, there]
  obtain ⟨offsets, each, places⟩ := found
  exact ⟨offsets, List.Nodup.of_map _ (places ▸ apart), each⟩

/-- Reading a constraint adds mistakes that are about different things in its text. -/
theorem Draft.exists_mistakes_add {n : Yaml.Node} {source : Placed}
    (text : Placed.ofNode n = .ok source) (scope : Scope) (infer : Bool) (d : Draft) :
    ∃ new offsets, (d.add scope infer n).mistakes = d.mistakes ++ new ∧
      Mistake.AllAt source new offsets := by
  cases read : ConstraintExpr.read source.text with
  | error e =>
      obtain ⟨i, isAt⟩ := ConstraintExpr.exists_isAt_of_read read source.placement
      refine ⟨_, [i], ?_, List.nodup_singleton i, .cons isAt .nil⟩
      simp only [add, text, read, mistakes_report]
  | ok e =>
      obtain ⟨der, stop, splits, rfl⟩ := ConstraintExpr.recognizes.exists_derivation read
      obtain ⟨named, inside, names⟩ := der.target.allName scope source.placement
      have later : named.Sublist der.tokens := .cons _ (.cons _ inside)
      simp only [add, text, read]
      split
      · exact ⟨[], [], (List.append_nil _).symm, .nil, .nil⟩
      · obtain ⟨offsets, allAt⟩ := Mistake.exists_allAt splits names later.subperm
        exact ⟨_, offsets, mistakes_report _ _, allAt⟩
      · have first : Mistake.Names source.placement
            ⟨source.placement.locate der.place, .unknownVariable der.var⟩
            ⟨.ident der.var, der.place⟩ := ⟨⟨_, rfl, rfl⟩, rfl⟩
        have some : (named ++ [(⟨.ident der.var, der.place⟩ : Token)]).Subperm der.tokens :=
          ⟨_, (List.perm_append_singleton _ _).symm, .cons_cons _ (.cons _ inside)⟩
        obtain ⟨offsets, allAt⟩ :=
          Mistake.exists_allAt splits (List.rel_append names (.cons first .nil)) some
        exact ⟨_, offsets, mistakes_report _ _, allAt⟩

end TypeBounds

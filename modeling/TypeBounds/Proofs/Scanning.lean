import TypeBounds.Expr.Token

/-! # Scanning what was written

Scanning splits a text into identifiers and blanks, each as long as it can be, and signs;
it fails only if a text cannot be split so. A text scans into lexemes piece by piece, as
long as no identifier runs into the next piece.
-/

namespace TypeBounds.Token

/-- A letter or an underscore, followed by letters, digits, underscores and dots. -/
def isIdent (name : String) : Bool :=
  match name.toList with
  | [] => false
  | c :: cs => isIdentStart c && cs.all isIdentRest

theorem exists_first_of_isIdent {name : String} (ident : isIdent name) :
    ∃ c cs, name.toList = c :: cs ∧ isIdentStart c := by
  unfold isIdent at ident
  split at ident
  · cases ident
  · rename_i c cs chars
    exact ⟨c, cs, chars, ((Bool.and_eq_true _ _).mp ident).1⟩

/-- No identifier goes on into the text. -/
def Stops (rest : List Char) : Prop := ∀ c ∈ rest.head?, isIdentRest c = false

theorem scanFrom_ident (position : Position) {name : String} {rest : List Char}
    (ident : isIdent name) (stops : Stops rest) :
    scanFrom position (name.toList ++ rest) =
      (scanFrom (position.advanceAll name.toList) rest).map
        fun (more, stop) => (⟨.ident name, position⟩ :: more, stop) := by
  unfold isIdent at ident
  split at ident
  · cases ident
  · rename_i c cs chars
    obtain ⟨start, others⟩ := (Bool.and_eq_true _ _).mp ident
    rw [List.all_eq_true] at others
    have taken : (cs ++ rest).takeWhile isIdentRest = cs := by
      rw [List.takeWhile_append_of_pos others]
      cases rest with
      | nil => simp
      | cons d rest => simp [stops d rfl]
    have dropped : (cs ++ rest).dropWhile isIdentRest = rest := by
      rw [List.dropWhile_append_of_pos others]
      cases rest with
      | nil => simp
      | cons d rest => simp [stops d rfl]
    have whole : String.ofList (c :: cs) = name := by rw [← chars, String.ofList_toList]
    rw [chars, List.cons_append, scanFrom, if_pos start]
    simp only [taken, dropped, whole]

theorem isIdentStart_of_isBlank {c : Char} (blank : isBlank c) : isIdentStart c = false := by
  simp only [isBlank, Bool.or_eq_true, decide_eq_true_eq] at blank
  rcases blank with (((rfl | rfl) | rfl) | rfl) | rfl <;> rfl

theorem scanFrom_blanks (position : Position) {cs rest : List Char} (blank : ∀ c ∈ cs, isBlank c) :
    scanFrom position (cs ++ rest) = scanFrom (position.advanceAll cs) rest := by
  induction cs generalizing position with
  | nil => rfl
  | cons c cs ih =>
      rw [List.forall_mem_cons] at blank
      have start := isIdentStart_of_isBlank blank.1
      rw [List.cons_append, scanFrom, if_neg (by simp [start]), if_pos blank.1, ih _ blank.2]
      rfl

/-- Signs start with characters that start nothing else. -/
theorem exists_first_of_sign {l : Lexeme} (other : ∀ name, l ≠ .ident name) :
    ∃ c cs, l.text.toList = c :: cs ∧ isIdentStart c = false ∧ isBlank c = false := by
  cases l with
  | ident name => exact (other name rfl).elim
  | _ => exact ⟨_, _, rfl, rfl, rfl⟩

theorem sign?_append {l : Lexeme} (other : ∀ name, l ≠ .ident name) (rest : List Char) :
    sign? (l.text.toList ++ rest) = some (l, rest) := by
  cases l with
  | ident name => exact (other name rfl).elim
  | _ => simp [Lexeme.text, sign?]

theorem scanFrom_sign (position : Position) {l : Lexeme} (other : ∀ name, l ≠ .ident name)
    (rest : List Char) :
    scanFrom position (l.text.toList ++ rest) =
      (scanFrom (position.advanceAll l.text.toList) rest).map
        fun (more, stop) => (⟨l, position⟩ :: more, stop) := by
  obtain ⟨c, cs, chars, start, blank⟩ := exists_first_of_sign other
  have found := sign?_append other rest
  rw [chars, List.cons_append] at found ⊢
  rw [scanFrom, if_neg (by simp [start]), if_neg (by simp [blank])]
  split
  · rename_i m rest' found'
    obtain ⟨rfl, rfl⟩ := Prod.mk.inj (Option.some.inj (found.symm.trans found'))
    rw [chars]
  · rename_i absent
    rw [found] at absent
    cases absent

/-- In front of `rest`, the characters `cs` are the lexemes `ls`. -/
def Scans (cs : List Char) (ls : List Lexeme) (rest : List Char) : Prop :=
  ∀ position, ∃ tokens position', tokens.map (·.lexeme) = ls ∧
    scanFrom position (cs ++ rest) =
      (scanFrom position' rest).map fun (more, stop) => (tokens ++ more, stop)

theorem scans_nil (rest : List Char) : Scans [] [] rest := by
  intro position
  refine ⟨[], position, rfl, ?_⟩
  cases h : scanFrom position rest <;> simp [h, Except.map]

theorem Scans.append {cs ds rest : List Char} {ls ms : List Lexeme}
    (first : Scans cs ls (ds ++ rest)) (second : Scans ds ms rest) :
    Scans (cs ++ ds) (ls ++ ms) rest := by
  intro position
  obtain ⟨tokens, position', lexemes, scanned⟩ := first position
  obtain ⟨tokens', position'', lexemes', scanned'⟩ := second position'
  refine ⟨tokens ++ tokens', position'', by simp [lexemes, lexemes'], ?_⟩
  rw [List.append_assoc, scanned, scanned']
  cases scanFrom position'' rest <;> simp [Except.map]

theorem scans_ident (name : String) {rest : List Char} (ident : isIdent name)
    (stops : Stops rest) : Scans name.toList [.ident name] rest := by
  intro position
  exact ⟨[⟨.ident name, position⟩], _, rfl, scanFrom_ident position ident stops⟩

theorem scans_blank (rest : List Char) : Scans [' '] [] rest := by
  intro position
  refine ⟨[], position.advanceAll [' '], rfl, ?_⟩
  rw [scanFrom_blanks position (by simp [isBlank])]
  cases scanFrom (position.advanceAll [' ']) rest <;> simp [Except.map]

theorem scans_sign {l : Lexeme} (other : ∀ name, l ≠ .ident name) (rest : List Char) :
    Scans l.text.toList [l] rest := by
  intro position
  exact ⟨[⟨l, position⟩], _, rfl, scanFrom_sign position other rest⟩

/-- A text from a place on splits into tokens: identifiers and blanks that end where they cannot go
    on, and signs. Blanks are no tokens. -/
inductive Splits : Position → List Char → List Token → Position → Prop where
  | nil (position : Position) : Splits position [] [] position
  | ident {position stop : Position} {name : String} {rest : List Char} {tokens : List Token}
      (isIdent : isIdent name) (stops : Stops rest)
      (others : Splits (position.advanceAll name.toList) rest tokens stop) :
      Splits position (name.toList ++ rest) (⟨.ident name, position⟩ :: tokens) stop
  | blanks {position stop : Position} {cs rest : List Char} {tokens : List Token}
      (some : cs ≠ []) (blank : ∀ c ∈ cs, isBlank c) (ends : ∀ c ∈ rest.head?, isBlank c = false)
      (others : Splits (position.advanceAll cs) rest tokens stop) :
      Splits position (cs ++ rest) tokens stop
  | sign {position stop : Position} {l : Lexeme} {rest : List Char} {tokens : List Token}
      (other : ∀ name, l ≠ .ident name)
      (others : Splits (position.advanceAll l.text.toList) rest tokens stop) :
      Splits position (l.text.toList ++ rest) (⟨l, position⟩ :: tokens) stop

theorem Splits.scanFrom {position stop : Position} {cs : List Char} {tokens : List Token}
    (splits : Splits position cs tokens stop) : scanFrom position cs = .ok (tokens, stop) := by
  induction splits with
  | nil => rw [Token.scanFrom]
  | ident isIdent stops _ ih => rw [scanFrom_ident _ isIdent stops, ih, Except.map]
  | blanks _ blank _ _ ih => rw [scanFrom_blanks _ blank, ih]
  | sign other _ ih => rw [scanFrom_sign _ other, ih, Except.map]

theorem Splits.blank {position stop : Position} {c : Char} {rest : List Char} {tokens : List Token}
    (blank : isBlank c) (splits : Splits (position.advance c) rest tokens stop) :
    Splits position (c :: rest) tokens stop := by
  have alone (ends : ∀ d ∈ rest.head?, isBlank d = false) :
      Splits position ([c] ++ rest) tokens stop :=
    .blanks (by simp) (by simpa using blank) ends splits
  cases splits with
  | nil => exact alone (by simp)
  | ident isIdent =>
      apply alone
      obtain ⟨d, ds, chars, start⟩ := exists_first_of_isIdent isIdent
      simp only [chars, List.cons_append, List.head?_cons, Option.mem_some]
      rintro _ rfl
      cases blank : isBlank d with
      | false => rfl
      | true => simp [isIdentStart_of_isBlank blank] at start
  | blanks _ blanks ends others =>
      rw [← List.cons_append]
      exact .blanks (by simp) (List.forall_mem_cons.mpr ⟨blank, blanks⟩) ends others
  | sign other =>
      apply alone
      obtain ⟨d, ds, chars, -, solid⟩ := exists_first_of_sign other
      simpa [chars] using solid

theorem ident_ne_sign {cs rest : List Char} {l : Lexeme} (found : sign? cs = some (l, rest))
    (name : String) : l ≠ .ident name := by
  unfold sign? at found
  split at found <;> cases found <;> simp

theorem eq_of_sign? {cs rest : List Char} {l : Lexeme} (found : sign? cs = some (l, rest)) :
    cs = l.text.toList ++ rest := by
  unfold sign? at found
  split at found <;> cases found <;> rfl

theorem splits_of_scanFrom {position stop : Position} {cs : List Char} {tokens : List Token}
    (scanned : scanFrom position cs = .ok (tokens, stop)) : Splits position cs tokens stop := by
  fun_induction scanFrom position cs generalizing tokens stop with
  | case1 position =>
      cases scanned
      exact .nil position
  | case2 position c rest start word =>
      rename_i ih
      cases others : scanFrom (position.advanceAll word) (rest.dropWhile isIdentRest) with
      | error e => simp [others, Except.map] at scanned
      | ok pair =>
          simp only [others, Except.map, Except.ok.injEq, Prod.mk.injEq] at scanned
          obtain ⟨rfl, rfl⟩ := scanned
          have text : c :: rest = (String.ofList word).toList ++ rest.dropWhile isIdentRest := by
            simp [word, List.takeWhile_append_dropWhile]
          rw [text]
          refine .ident (by simp [isIdent, word, start]) ?_ (by simpa using ih others)
          intro d next
          have ends := List.head?_dropWhile_not isIdentRest rest
          rw [Option.mem_def.mp next] at ends
          exact ends
  | case3 position c rest start blank ih => exact (ih scanned).blank blank
  | case4 position c rest start blank l rest' found ih =>
      cases others : scanFrom (position.advanceAll l.text.toList) rest' with
      | error e => simp [others, Except.map] at scanned
      | ok pair =>
          simp only [others, Except.map, Except.ok.injEq, Prod.mk.injEq] at scanned
          obtain ⟨rfl, rfl⟩ := scanned
          rw [eq_of_sign? found]
          exact .sign (ident_ne_sign found) (ih others)
  | case5 => cases scanned

theorem Splits.tokens_eq {position stop stop' : Position} {cs : List Char}
    {tokens tokens' : List Token} (splits : Splits position cs tokens stop)
    (splits' : Splits position cs tokens' stop') : tokens = tokens' :=
  (Prod.mk.inj (Except.ok.inj (splits.scanFrom.symm.trans splits'.scanFrom))).1

theorem Splits.isIdent_of_mem {position stop : Position} {cs : List Char} {tokens : List Token}
    (splits : Splits position cs tokens stop) {name : String}
    (member : .ident name ∈ tokens.map (·.lexeme)) : Token.isIdent name := by
  induction splits with
  | nil => simp at member
  | ident isIdent _ _ ih =>
      rcases List.mem_cons.mp member with here | there
      · cases here
        exact isIdent
      · exact ih there
  | blanks _ _ _ _ ih => exact ih member
  | sign other _ ih =>
      rcases List.mem_cons.mp member with here | there
      · exact (other name here.symm).elim
      · exact ih there

end TypeBounds.Token

import TypeBounds.Proofs.Whereabouts

/-! # Upper bounds without quotes

The entry of `T <` to a type is the text that it was written as: the key, a colon, blanks
and the type at its own column. So it is read as that text would be, and its mistakes are
where they are in the file.
-/

namespace TypeBounds

open Yaml (Node Style)

theorem utf8ByteSize_of_ascii {s : String} (ascii : ∀ c ∈ s.toList, c.val ≤ 127) :
    s.utf8ByteSize = s.length := by
  rw [← String.ofList_toList (s := s)]
  generalize s.toList = cs at ascii
  rw [String.length_ofList]
  induction cs with
  | nil => rfl
  | cons c cs ih =>
      rw [List.forall_mem_cons] at ascii
      have single : c.utf8Size = 1 := Char.utf8Size_eq_one_iff.mpr ascii.1
      rw [String.ofList_cons, String.utf8ByteSize_append, String.utf8ByteSize_singleton, single,
        ih ascii.2, List.length_cons, Nat.add_comm]

theorem Position.advanceAll_of_line (p : Position) {cs : List Char} (line : '\n' ∉ cs) :
    p.advanceAll cs = ⟨p.line, p.column + cs.length⟩ := by
  induction cs generalizing p with
  | nil => simp [advanceAll]
  | cons c cs ih =>
      have inside : c ≠ '\n' ∧ '\n' ∉ cs := by simpa [eq_comm] using line
      show (p.advance c).advanceAll cs = _
      rw [ih _ inside.2, advance, if_neg inside.1, List.length_cons]
      simp only [Position.mk.injEq, true_and]
      omega

/-- A text on one line of a file is in the file's columns. -/
theorem Placement.locate_into {line column : Int} {cs : List Char} {i : Nat} (known : line ≠ 0)
    (single : '\n' ∉ cs) (inside : i ≤ cs.length) :
    (⟨⟨line, column⟩, false⟩ : Placement).locate (.into cs i) = ⟨line, column + i⟩ := by
  have front : '\n' ∉ cs.take i := fun member => single (List.mem_of_mem_take member)
  have there : Position.into cs i = ⟨1, 1 + i⟩ := by
    rw [Position.into, Position.advanceAll_of_line _ front, List.length_take_of_le inside]
    rfl
  have isKnown : Position.isKnown ⟨line, column⟩ := by simpa [Position.isKnown] using known
  simp only [locate, if_pos isKnown, there, Bool.false_eq_true, if_false, Position.mk.injEq]
  omega

/-- The column at which the text of a value starts. -/
def valueColumn (column : Int) (style : Style) : Int :=
  if style.isQuoted then column + 1 else column

variable {L C V : Int} {k x : String} {tag tag' : Option String} {style : Style}

theorem Placed.padding_eq {blanks : Nat} (ascii : ∀ c ∈ k.toList, c.val ≤ 127) (some : 0 < blanks)
    (there : C + k.length + 1 + blanks = valueColumn V style) :
    padding (.scalar ⟨L, C⟩ none .plain k) (.scalar ⟨L, V⟩ tag style x) = blanks := by
  simp only [padding, Node.position, Node.text, Node.isQuoted, utf8ByteSize_of_ascii ascii]
  unfold valueColumn at there
  split at there
  next quoted =>
    simp only [quoted, if_true]
    rw [if_neg (by omega)]
    omega
  next plain =>
    simp only [plain, Bool.false_eq_true, if_false]
    rw [if_neg (by omega)]
    omega

theorem Placed.ofNode_entry {blanks : Nat} (position : Position)
    (ascii : ∀ c ∈ k.toList, c.val ≤ 127) (ends : k.endsWith "<") (inline : style.isBlock = false)
    (some : 0 < blanks) (there : C + k.length + 1 + blanks = valueColumn V style) :
    ofNode (.mapping position tag [(.scalar ⟨L, C⟩ none .plain k, .scalar ⟨L, V⟩ tag' style x)]) =
      .ok ⟨k ++ ":" ++ String.ofList (List.replicate blanks ' ') ++ x, ⟨⟨L, C⟩, false⟩⟩ := by
  have isUpperBound : isUpperBound (.scalar ⟨L, C⟩ none .plain k)
      (.scalar ⟨L, V⟩ tag' style x) := by
    simp [isUpperBound, ends, inline]
  rw [ofNode, if_pos isUpperBound, padding_eq ascii some there]
  rfl

/-- An upper bound that is written without quotes is read as the text that it is in the file: it is
    the same constraint, on the same variables, with the same mistakes, and these are where the
    file has what they are about. -/
theorem Draft.entry_reads_as_text (scope : Scope) (infer : Bool) (d : Draft) (position : Position)
    (tag tag' : Option String) {L C V : Int} {k : String} (x : String) (style : Style)
    (ascii : ∀ c ∈ k.toList, c.val ≤ 127) (ends : k.endsWith "<") (inline : style.isBlock = false)
    (behind : C + k.length + (if style.isQuoted then 1 else 2) ≤ V) :
    ∃ blanks : Nat, 0 < blanks ∧ C + k.length + 1 + blanks = valueColumn V style ∧
      let front := k ++ ":" ++ String.ofList (List.replicate blanks ' ')
      let entry : Node :=
        .mapping position tag [(.scalar ⟨L, C⟩ none .plain k, .scalar ⟨L, V⟩ tag' style x)]
      let whole : Node := .scalar ⟨L, C⟩ none .plain (front ++ x)
      Placed.ofNode entry = Placed.ofNode whole ∧
      d.add scope infer entry = d.add scope infer whole ∧
      ∃ new offsets, (d.add scope infer entry).mistakes = d.mistakes ++ new ∧
        Mistake.AllAt ⟨front ++ x, ⟨⟨L, C⟩, false⟩⟩ new offsets ∧
        (L ≠ 0 → '\n' ∉ k.toList → '\n' ∉ x.toList → List.Forall₂ (fun m i =>
          m.position = ⟨L, C + i⟩ ∧
            ∀ j : Nat, i = front.length + j → m.position = ⟨L, valueColumn V style + j⟩)
          new offsets) := by
  have room : C + k.length + 2 ≤ valueColumn V style := by
    unfold valueColumn
    split
    next quoted =>
      rw [if_pos quoted] at behind
      omega
    next plain =>
      rw [if_neg plain] at behind
      omega
  obtain ⟨blanks, count⟩ : ∃ blanks : Nat, C + k.length + 1 + blanks = valueColumn V style :=
    ⟨(valueColumn V style - (C + k.length + 1)).toNat, by omega⟩
  have some : 0 < blanks := by omega
  refine ⟨blanks, some, count, ?_⟩
  intro front entry whole
  have text : Placed.ofNode entry = .ok ⟨front ++ x, ⟨⟨L, C⟩, false⟩⟩ :=
    Placed.ofNode_entry position ascii ends inline some count
  have same : Placed.ofNode entry = Placed.ofNode whole := text
  obtain ⟨new, offsets, mistakes, allAt⟩ := exists_mistakes_add text scope infer d
  refine ⟨same, by simp only [add, same], new, offsets, mistakes, allAt, ?_⟩
  intro known keyLine valueLine
  have length : C + front.length = valueColumn V style := by
    have colon : ":".length = 1 := rfl
    simp only [front, String.length_append, String.length_ofList, List.length_replicate, colon]
    omega
  have line : '\n' ∉ (front ++ x).toList := by
    simp [front, keyLine, valueLine, List.mem_replicate]
  refine allAt.each.imp fun m i isAt => ?_
  have place := isAt.position.trans (Placement.locate_into known line isAt.about.le_length)
  refine ⟨place, fun j there => ?_⟩
  rw [place, there, ← length, Int.natCast_add, Int.add_assoc]

/-- Two unknown names in a quoted type, and a variable that is not declared: the line is
    `  - S <: "(nope, rope)"`. -/
theorem Draft.entry_reads_as_text_rope :
    let entry : Node := .mapping ⟨4, 5⟩ none [(.scalar ⟨4, 5⟩ none .plain "S <",
      .scalar ⟨4, 10⟩ none .doubleQuoted "(nope, rope)")]
    let text := "S <:  (nope, rope)"
    let whole : Node := .scalar ⟨4, 5⟩ none .plain text
    let d : Draft := ⟨Roster.empty.declare "T", [], .empty⟩
    let ms : List Mistake := [⟨⟨4, 12⟩, .unknownClass "nope"⟩, ⟨⟨4, 18⟩, .unknownClass "rope"⟩,
      ⟨⟨4, 5⟩, .unknownVariable "S"⟩]
    d.add .builtin false entry = d.add .builtin false whole ∧
      (d.add .builtin false entry).mistakes = ms ∧
      ∃ offsets, Mistake.AllAt ⟨text, ⟨⟨4, 5⟩, false⟩⟩ ms offsets ∧
        List.Forall₂ (fun m (i : Nat) => m.position = ⟨4, 5 + i⟩ ∧
          ∀ j : Nat, i = 6 + j → m.position = ⟨4, 11 + j⟩) ms offsets := by
  intro entry text whole d ms
  have ascii : ∀ c ∈ "S <".toList, c.val ≤ 127 := by simp
  have ends : "S <".endsWith "<" := by decide +kernel
  obtain ⟨blanks, -, count, -, same, new, offsets, mistakes, allAt, places⟩ :=
    entry_reads_as_text .builtin false d ⟨4, 5⟩ none none "(nope, rope)" .doubleQuoted
      (L := 4) (C := 5) (V := 10) ascii ends rfl (by decide)
  obtain rfl : blanks = 2 := by
    have column : (5 : Int) + 3 + 1 + blanks = 11 := count
    omega
  have evaluated : (d.add .builtin false whole).mistakes = ms := by decide +kernel
  obtain rfl : new = ms := by
    rw [same] at mistakes
    exact mistakes.symm.trans evaluated
  exact ⟨same, mistakes, offsets, allAt, places (by decide) (by decide) (by decide)⟩

end TypeBounds

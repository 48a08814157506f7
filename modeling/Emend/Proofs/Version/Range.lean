import Emend.Proofs.Version.Bounds

/-!
What the text of a range asks for. A text is read if and only if it is written in one of the five ways,
and the versions in the range are those that meet every constraint of the text.
-/

set_option autoImplicit false

namespace Emend

open Emend.Text (isBlank pieces)

/-- These characters are read as this version. -/
def Version.Named (cs : List Char) (w : Version) : Prop := Version.parse (String.ofList cs) = .ok w

instance (cs : List Char) (w : Version) : Decidable (Version.Named cs w) :=
  inferInstanceAs (Decidable (_ = _))

def Bounding.spelling : Bounding → List Char
  | greater => ['>']
  | atLeast => ['>', '=']
  | less => ['<']
  | atMost => ['<', '=']
  | equal => ['=']

namespace VersionRange

def isSeparator (c : Char) : Bool := c == ' ' || c == ','

/-- Comparisons in a row with separators between them. -/
inductive Comparisons : List Char → List VersionConstraint → Prop where
  | done : Comparisons [] []
  | separator {c : Char} {rest : List Char} {constraints : List VersionConstraint}
      (separates : isSeparator c = true) (after : Comparisons rest constraints) :
      Comparisons (c :: rest) constraints
  | comparison (bounding : Bounding) {name rest : List Char} {w : Version}
      {constraints : List VersionConstraint} (named : Version.Named name w)
      (whole : ∀ c ∈ name, isSeparator c = false) (apart : ∀ c, rest.head? = some c → isSeparator c = true)
      (after : Comparisons rest constraints) :
      Comparisons (bounding.spelling ++ name ++ rest) (⟨bounding, w⟩ :: constraints)

/-- One side of an interval, open or with a version. -/
inductive Side (bounding : Bounding) : List Char → List VersionConstraint → Prop where
  | unbounded {cs : List Char} (blank : ∀ c ∈ cs, isBlank c = true) : Side bounding cs []
  | bounded {cs : List Char} {w : Version} (named : Version.Named cs w) : Side bounding cs [⟨bounding, w⟩]

/-- The ways to write a range, with the constraints that each of them states. -/
inductive Written : List Char → List VersionConstraint → Prop where
  | star : Written ['*'] []
  | least {cs : List Char} {w : Version} (named : Version.Named cs w) : Written cs [⟨.atLeast, w⟩]
  | pinned {cs : List Char} {w : Version} (single : ',' ∉ cs) (named : Version.Named cs w) :
      Written ('[' :: cs ++ [']']) [⟨.equal, w⟩]
  | interval {opening closing : Char} {lower upper : Bounding} {low high : List Char}
      {before after : List VersionConstraint}
      (opens : opening = '[' ∧ lower = .atLeast ∨ opening = '(' ∧ lower = .greater)
      (closes : closing = ']' ∧ upper = .atMost ∨ closing = ')' ∧ upper = .less)
      (first : ',' ∉ low) (left : Side lower low before) (right : Side upper high after) :
      Written (opening :: low ++ ',' :: high ++ [closing]) (before ++ after)
  | comparisons (bounding : Bounding) {rest : List Char} {constraints : List VersionConstraint}
      (all : Comparisons (bounding.spelling ++ rest) constraints) :
      Written (bounding.spelling ++ rest) constraints

theorem named_iff {cs : List Char} {w : Version} : Version.Named cs w ↔ ofChars? cs = some w :=
  Version.parse_eq_ok_iff

theorem head_of_named {c : Char} {rest : List Char} {w : Version} (named : Version.Named (c :: rest) w) :
    isBlank c = true ∨ c = 'v' ∨ c = 'V' ∨ c.isDigit := by
  obtain ⟨front, parts, back, opening, numerals, whole, -, -⟩ :=
    Version.of_parse? (Version.parse_eq_ok_iff.mp named)
  obtain ⟨blanks, mark, rfl, blank, marked⟩ := opening
  obtain ⟨d, digits, dotted, digit⟩ := numerals.isDotted.first
  rw [String.toList_ofList, dotted] at whole
  cases blanks with
  | cons b blanks =>
      cases whole
      exact .inl (blank _ List.mem_cons_self)
  | nil =>
      rcases marked with rfl | rfl | rfl <;> cases whole
      · exact .inr (.inr (.inr digit))
      · exact .inr (.inl rfl)
      · exact .inr (.inr (.inl rfl))

theorem not_named_of_first {c : Char} (rest : List Char) (w : Version)
    (other : (isBlank c || c == 'v' || c == 'V' || c.isDigit) = false) :
    ¬ Version.Named (c :: rest) w := by
  intro named
  simp only [Bool.or_eq_false_iff, beq_eq_false_iff_ne] at other
  obtain ⟨⟨⟨solid, lower⟩, upper⟩, letter⟩ := other
  rcases head_of_named named with blank | rfl | rfl | digit
  · rw [blank] at solid
    cases solid
  · exact lower rfl
  · exact upper rfl
  · rw [digit] at letter
    cases letter

theorem exists_digit_of_named {cs : List Char} {w : Version} (named : Version.Named cs w) :
    ∃ c ∈ cs, c.isDigit := by
  obtain ⟨front, parts, back, -, numerals, whole, -, -⟩ :=
    Version.of_parse? (Version.parse_eq_ok_iff.mp named)
  obtain ⟨d, digits, dotted, digit⟩ := numerals.isDotted.first
  rw [String.toList_ofList, dotted] at whole
  exact ⟨d, by simp [whole], digit⟩

theorem clause?_spelling (r : VersionRange) (bounding : Bounding) {name : List Char} {w : Version}
    (named : Version.Named name w) :
    clause? r (bounding.spelling ++ name) = some (r.narrow ⟨bounding, w⟩) := by
  have read := named_iff.mp named
  -- A sign of one character would be taken for one of two if the version began with an equals sign.
  have unequal (rest : List Char) : name ≠ '=' :: rest := by
    rintro rfl
    exact not_named_of_first rest w (by decide) named
  have short (sign : Char) (signed : sign = '<' ∨ sign = '>') : clause? r (sign :: name) =
      some (r.narrow ⟨if sign = '<' then .less else .greater, w⟩) := by
    unfold clause?
    split <;> simp_all [narrow]
  cases bounding with
  | greater => exact short '>' (.inr rfl)
  | less => exact short '<' (.inl rfl)
  | atLeast =>
      have clause : clause? r ('>' :: '=' :: name) = (ofChars? name).map fun v => r.raise ⟨v, true⟩ := rfl
      rw [read] at clause
      exact clause
  | atMost =>
      have clause : clause? r ('<' :: '=' :: name) = (ofChars? name).map fun v => r.cap ⟨v, true⟩ := rfl
      rw [read] at clause
      exact clause
  | equal =>
      have clause : clause? r ('=' :: name) =
          (ofChars? name).map fun v => (r.raise ⟨v, true⟩).cap ⟨v, true⟩ := rfl
      rw [read] at clause
      exact clause

theorem of_clause? {r r' : VersionRange} {cs : List Char} (read : clause? r cs = some r') :
    ∃ (bounding : Bounding) (name : List Char) (w : Version),
      Version.Named name w ∧ cs = bounding.spelling ++ name := by
  unfold clause? at read
  split at read
  · obtain ⟨w, named, -⟩ := Option.map_eq_some_iff.mp read
    exact ⟨.atMost, _, w, named_iff.mpr named, rfl⟩
  · obtain ⟨w, named, -⟩ := Option.map_eq_some_iff.mp read
    exact ⟨.atLeast, _, w, named_iff.mpr named, rfl⟩
  · obtain ⟨w, named, -⟩ := Option.map_eq_some_iff.mp read
    exact ⟨.less, _, w, named_iff.mpr named, rfl⟩
  · obtain ⟨w, named, -⟩ := Option.map_eq_some_iff.mp read
    exact ⟨.greater, _, w, named_iff.mpr named, rfl⟩
  · obtain ⟨w, named, -⟩ := Option.map_eq_some_iff.mp read
    exact ⟨.equal, _, w, named_iff.mpr named, rfl⟩
  · cases read

def clauses (cs : List Char) : List (List Char) := (pieces isSeparator cs).filter (!·.isEmpty)

theorem comparisons?_eq (cs : List Char) : comparisons? cs = (clauses cs).foldlM clause? any := rfl

theorem clauses_separator {c : Char} (separates : isSeparator c = true) (rest : List Char) :
    clauses (c :: rest) = clauses rest := by
  rw [clauses, pieces, if_pos separates]
  rfl

theorem clauses_append {clause rest : List Char} (filled : clause ≠ [])
    (whole : ∀ c ∈ clause, isSeparator c = false)
    (apart : ∀ c, rest.head? = some c → isSeparator c = true) :
    clauses (clause ++ rest) = clause :: clauses rest := by
  have kept (others : List (List Char)) :
      (clause :: others).filter (!·.isEmpty) = clause :: others.filter (!·.isEmpty) :=
    List.filter_cons_of_pos (by simpa using filled)
  cases rest with
  | nil =>
      rw [List.append_nil, clauses, Text.pieces_eq_splitOnP, List.splitOnP_eq_singleton whole, kept]
      rfl
  | cons c rest =>
      have separates := apart c rfl
      rw [clauses_separator separates, clauses, Text.pieces_eq_splitOnP,
        List.splitOnP_append_cons_of_forall_mem whole c separates, kept, ← Text.pieces_eq_splitOnP]
      rfl

theorem isSeparator_spelling (bounding : Bounding) : ∀ c ∈ bounding.spelling, isSeparator c = false := by
  cases bounding <;> simp [Bounding.spelling, isSeparator]

theorem Comparisons.foldlM_clause? {cs : List Char} {constraints : List VersionConstraint}
    (written : Comparisons cs constraints) (r : VersionRange) :
    (clauses cs).foldlM clause? r = some (constraints.foldl narrow r) := by
  induction written generalizing r with
  | done => rfl
  | separator separates after ih => rw [clauses_separator separates, ih]
  | @comparison bounding name rest w constraints named whole apart after ih =>
      have filled : bounding.spelling ++ name ≠ [] := by cases bounding <;> exact nofun
      have solid : ∀ c ∈ bounding.spelling ++ name, isSeparator c = false := by
        intro c member
        exact (List.mem_append.mp member).elim (isSeparator_spelling bounding c) (whole c)
      rw [clauses_append filled solid apart, List.foldlM_cons, clause?_spelling r bounding named]
      exact ih (r.narrow ⟨bounding, w⟩)

/-- The induction is on the length of the text: a comparison takes all characters up to a separator. -/
theorem of_foldlM_clause? {cs : List Char} {r r' : VersionRange}
    (read : (clauses cs).foldlM clause? r = some r') : ∃ constraints, Comparisons cs constraints := by
  induction length : cs.length using Nat.strongRecOn generalizing cs r with
  | ind n ih =>
    cases cs with
    | nil => exact ⟨[], .done⟩
    | cons c rest =>
        by_cases separates : isSeparator c = true
        · rw [clauses_separator separates] at read
          obtain ⟨constraints, written⟩ := ih rest.length (by simp [← length]) read rfl
          exact ⟨constraints, .separator separates written⟩
        · obtain ⟨clause, others, split, filled, whole, apart⟩ : ∃ clause others,
              c :: rest = clause ++ others ∧ clause ≠ [] ∧ (∀ c ∈ clause, isSeparator c = false) ∧
                ∀ c, others.head? = some c → isSeparator c = true := by
            refine ⟨(c :: rest).takeWhile (!isSeparator ·), (c :: rest).dropWhile (!isSeparator ·),
              List.takeWhile_append_dropWhile.symm, ?_, fun b member => ?_, fun b head => ?_⟩
            · simp [separates]
            · simpa using List.mem_takeWhile_imp member
            · have stop := List.head?_dropWhile_not (!isSeparator ·) (c :: rest)
              rw [head] at stop
              simpa using stop
          rw [split, clauses_append filled whole apart, List.foldlM_cons] at read
          obtain ⟨narrowed, first, later⟩ := Option.bind_eq_some_iff.mp read
          obtain ⟨bounding, name, w, named, rfl⟩ := of_clause? first
          have shorter : others.length < n := by
            have lengths := congrArg List.length split
            have some := List.length_pos_of_ne_nil filled
            rw [List.length_append] at lengths
            omega
          obtain ⟨constraints, written⟩ := ih others.length shorter later rfl
          rw [split]
          exact ⟨_, .comparison bounding named
            (fun c member => whole c (List.mem_append_right _ member)) apart written⟩

theorem Side.side?_eq {bounding : Bounding} {cs : List Char} {constraints : List VersionConstraint}
    (side : Side bounding cs constraints) (included : Bool) :
    side? cs included = some (constraints.head?.map fun c => ⟨c.version, included⟩) := by
  cases side with
  | unbounded blank => exact if_pos (List.all_eq_true.mpr blank)
  | bounded named =>
      have solid : ¬ cs.all isBlank = true := by
        intro blank
        obtain ⟨c, member, digit⟩ := exists_digit_of_named named
        have empty := List.all_eq_true.mp blank c member
        rw [Version.isBlank_of_isDigit digit] at empty
        cases empty
      rw [side?, if_neg solid, named_iff.mp named]
      rfl

theorem of_side? {cs : List Char} {included : Bool} {bound : Option VersionBound}
    (read : side? cs included = some bound) (bounding : Bounding) :
    ∃ constraints, Side bounding cs constraints := by
  unfold side? at read
  split at read
  · rename_i blank
    exact ⟨[], .unbounded (List.all_eq_true.mp blank)⟩
  · obtain ⟨w, named, -⟩ := Option.map_eq_some_iff.mp read
    exact ⟨_, .bounded (named_iff.mpr named)⟩

theorem inner?_sides {opening closing : Char} {lower upper : Bounding} {low high : List Char}
    {before after : List VersionConstraint}
    (opens : opening = '[' ∧ lower = .atLeast ∨ opening = '(' ∧ lower = .greater)
    (closes : closing = ']' ∧ upper = .atMost ∨ closing = ')' ∧ upper = .less)
    (first : ',' ∉ low) (left : Side lower low before) (right : Side upper high after) :
    inner? (opening == '[') (closing == ']') (low ++ ',' :: high) =
      some ((before ++ after).foldl narrow any) := by
  unfold inner?
  rw [Text.cut?_append first]
  dsimp only
  rw [left.side?_eq, right.side?_eq]
  rcases opens with ⟨rfl, rfl⟩ | ⟨rfl, rfl⟩ <;> rcases closes with ⟨rfl, rfl⟩ | ⟨rfl, rfl⟩ <;>
    cases left <;> cases right <;> rfl

theorem inner?_single {cs : List Char} {w : Version} (single : ',' ∉ cs) (named : Version.Named cs w) :
    inner? true true cs = some ([⟨.equal, w⟩].foldl narrow any) := by
  unfold inner?
  rw [Text.cut?_eq_none single, named_iff.mp named]
  rfl

theorem of_inner? {opening closing : Char} (opens : opening = '[' ∨ opening = '(')
    (closes : closing = ']' ∨ closing = ')') {cs : List Char} {r : VersionRange}
    (read : inner? (opening == '[') (closing == ']') cs = some r) :
    ∃ constraints, Written (opening :: cs ++ [closing]) constraints := by
  unfold inner? at read
  rcases Text.exists_cut? ',' cs with ⟨single, cut⟩ | ⟨low, high, rfl, first, cut⟩
  · rw [cut] at read
    dsimp only at read
    split at read
    · rename_i both
      simp only [Bool.and_eq_true, beq_iff_eq] at both
      obtain ⟨rfl, rfl⟩ := both
      obtain ⟨w, named, -⟩ := Option.map_eq_some_iff.mp read
      exact ⟨_, .pinned single (named_iff.mpr named)⟩
    · cases read
  · rw [cut] at read
    obtain ⟨lower, left, read⟩ := Option.bind_eq_some_iff.mp read
    obtain ⟨upper, right, -⟩ := Option.bind_eq_some_iff.mp read
    obtain ⟨least, begins⟩ : ∃ lower, opening = '[' ∧ lower = Bounding.atLeast ∨
        opening = '(' ∧ lower = Bounding.greater := by
      rcases opens with rfl | rfl
      · exact ⟨.atLeast, .inl ⟨rfl, rfl⟩⟩
      · exact ⟨.greater, .inr ⟨rfl, rfl⟩⟩
    obtain ⟨greatest, ends⟩ : ∃ upper, closing = ']' ∧ upper = Bounding.atMost ∨
        closing = ')' ∧ upper = Bounding.less := by
      rcases closes with rfl | rfl
      · exact ⟨.atMost, .inl ⟨rfl, rfl⟩⟩
      · exact ⟨.less, .inr ⟨rfl, rfl⟩⟩
    obtain ⟨before, leftSide⟩ := of_side? left least
    obtain ⟨after, rightSide⟩ := of_side? right greatest
    exact ⟨_, .interval begins ends first leftSide rightSide⟩

theorem interval?_closing (included : Bool) (cs : List Char) {closing : Char}
    (closes : closing = ']' ∨ closing = ')') :
    interval? included (cs ++ [closing]) = inner? included (closing == ']') cs := by
  unfold interval?
  rw [List.getLast?_concat, List.dropLast_concat]
  rcases closes with rfl | rfl <;> rfl

theorem of_interval? {opening : Char} (opens : opening = '[' ∨ opening = '(') {rest : List Char}
    {r : VersionRange} (read : interval? (opening == '[') rest = some r) :
    ∃ constraints, Written (opening :: rest) constraints := by
  rcases List.eq_nil_or_concat rest with rfl | ⟨cs, closing, rfl⟩
  · cases read
  · rw [List.concat_eq_append] at read ⊢
    have closes : closing = ']' ∨ closing = ')' := by
      unfold interval? at read
      rw [List.getLast?_concat] at read
      split at read
      · rename_i last
        exact .inl (Option.some.inj last)
      · rename_i last
        exact .inr (Option.some.inj last)
      · cases read
    rw [interval?_closing _ _ closes] at read
    exact of_inner? opens closes read

/-- A written text is read as the range of its constraints. -/
theorem parse?_of_written {text : String} {constraints : List VersionConstraint}
    (written : Written (Text.trim text).toList constraints) :
    parse? text = some (constraints.foldl narrow any) := by
  unfold parse?
  generalize (Text.trim text).toList = cs at written
  cases written with
  | star => rfl
  | least named =>
      split
      · exact absurd named (not_named_of_first _ _ (by decide))
      · exact absurd named (not_named_of_first _ _ (by decide))
      · exact absurd named (not_named_of_first _ _ (by decide))
      · exact absurd named (not_named_of_first _ _ (by decide))
      · exact absurd named (not_named_of_first _ _ (by decide))
      · exact absurd named (not_named_of_first _ _ (by decide))
      · rw [named_iff.mp named]
        rfl
  | @pinned cs w single named =>
      change interval? true (cs ++ [']']) = _
      rw [interval?_closing _ _ (.inl rfl)]
      exact inner?_single single named
  | @interval opening closing lower upper low high before after opens closes first left right =>
      have ends : closing = ']' ∨ closing = ')' := closes.imp And.left And.left
      have inner := inner?_sides opens closes first left right
      rw [← interval?_closing _ _ ends] at inner
      rcases opens with ⟨rfl, -⟩ | ⟨rfl, -⟩
      · exact inner
      · exact inner
  | @comparisons bounding rest constraints all =>
      have compared := all.foldlM_clause? any
      rw [← comparisons?_eq] at compared
      cases bounding <;> exact compared

theorem of_parse? {text : String} {r : VersionRange} (read : parse? text = some r) :
    ∃ constraints, Written (Text.trim text).toList constraints := by
  unfold parse? at read
  generalize (Text.trim text).toList = cs at read
  split at read
  · exact ⟨_, .star⟩
  · exact of_interval? (.inl rfl) read
  · exact of_interval? (.inr rfl) read
  · obtain ⟨constraints, all⟩ := of_foldlM_clause? read
    exact ⟨constraints, .comparisons .less all⟩
  · obtain ⟨constraints, all⟩ := of_foldlM_clause? read
    exact ⟨constraints, .comparisons .greater all⟩
  · obtain ⟨constraints, all⟩ := of_foldlM_clause? read
    exact ⟨constraints, .comparisons .equal all⟩
  · obtain ⟨w, named, -⟩ := Option.map_eq_some_iff.mp read
    exact ⟨_, .least (named_iff.mpr named)⟩

theorem parse_eq_ok_iff {text : String} {r : VersionRange} :
    VersionRange.parse text = .ok r ↔ parse? text = some r := by
  unfold VersionRange.parse
  cases parse? text <;> simp

/-- A text is read as a range if and only if it is written in one of the five ways, and then the versions
in the range are those that meet all constraints of the text. -/
theorem contains_parse (text : String) :
    ((∃ r, VersionRange.parse text = .ok r) ↔
      ∃ constraints, Written (Text.trim text).toList constraints) ∧
    ∀ r, VersionRange.parse text = .ok r →
      ∀ constraints, Written (Text.trim text).toList constraints →
        ∀ v, r.contains v ↔ ∀ c ∈ constraints, c.Holds v := by
  refine ⟨⟨?_, ?_⟩, ?_⟩
  · rintro ⟨r, read⟩
    exact of_parse? (parse_eq_ok_iff.mp read)
  · rintro ⟨constraints, written⟩
    exact ⟨_, parse_eq_ok_iff.mpr (parse?_of_written written)⟩
  · intro r read constraints written v
    rw [parse_eq_ok_iff, parse?_of_written written] at read
    cases read
    rw [contains_foldl_narrow]
    simp [any, contains]

/-- The bounds of `>=1.0` and `>1.0` tie, and the second one is the stricter. -/
theorem contains_parse_tied :
    ∃ r, VersionRange.parse " >=1.0,<2 >1.0" = .ok r ∧ ∀ v : Version, r.contains v ↔
      (v.cmp ⟨[1, 0], none⟩).isGE ∧ v.cmp ⟨[2], none⟩ = .lt ∧ v.cmp ⟨[1, 0], none⟩ = .gt := by
  have trimmed : (Text.trim " >=1.0,<2 >1.0").toList =
      ['>', '=', '1', '.', '0', ',', '<', '2', ' ', '>', '1', '.', '0'] := by decide +kernel
  have one : Version.Named ['1', '.', '0'] ⟨[1, 0], none⟩ := by decide +kernel
  have two : Version.Named ['2'] ⟨[2], none⟩ := by decide +kernel
  have third : Comparisons ['>', '1', '.', '0'] [⟨.greater, ⟨[1, 0], none⟩⟩] :=
    @Comparisons.comparison .greater ['1', '.', '0'] [] _ _ one (by simp [isSeparator]) nofun .done
  have second : Comparisons ['<', '2', ' ', '>', '1', '.', '0']
      [⟨.less, ⟨[2], none⟩⟩, ⟨.greater, ⟨[1, 0], none⟩⟩] :=
    @Comparisons.comparison .less ['2'] (' ' :: _) _ _ two (by simp [isSeparator])
      (fun _ blank => Option.some.inj blank ▸ rfl) (.separator rfl third)
  have first : Comparisons ['>', '=', '1', '.', '0', ',', '<', '2', ' ', '>', '1', '.', '0']
      [⟨.atLeast, ⟨[1, 0], none⟩⟩, ⟨.less, ⟨[2], none⟩⟩, ⟨.greater, ⟨[1, 0], none⟩⟩] :=
    @Comparisons.comparison .atLeast ['1', '.', '0'] (',' :: _) _ _ one (by simp [isSeparator])
      (fun _ comma => Option.some.inj comma ▸ rfl) (.separator rfl second)
  have written : Written (Text.trim " >=1.0,<2 >1.0").toList
      [⟨.atLeast, ⟨[1, 0], none⟩⟩, ⟨.less, ⟨[2], none⟩⟩, ⟨.greater, ⟨[1, 0], none⟩⟩] := by
    rw [trimmed]
    exact .comparisons .atLeast first
  obtain ⟨r, read⟩ := (contains_parse " >=1.0,<2 >1.0").1.mpr ⟨_, written⟩
  refine ⟨r, read, fun v => ?_⟩
  rw [(contains_parse " >=1.0,<2 >1.0").2 r read _ written v]
  simp [VersionConstraint.Holds]

end VersionRange

end Emend

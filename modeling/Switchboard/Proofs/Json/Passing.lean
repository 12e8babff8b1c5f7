import Switchboard.Proofs.Json.Record

/-!
# Values are passed over

Every valid text of a value is passed over, whatever it is and however deep its containers are nested
(`takes_skipValue`). The containers that are open around a value are kept on a stack, so what is shown by
induction on the text speaks of the stack: a value is passed over if what is behind it leads out of the
containers around it (`passes_of_valid`).
-/

namespace Switchboard.Json

variable {α : Type}

theorem Delimits.not_digit {rest : List Char} (delimited : Delimits rest) :
    ∀ c ∈ rest.head?, ¬ c.isDigit := by
  intro c ahead
  simpa using (delimited c ahead).1

theorem Digits.head {digits : List Char} (isDigits : Digits digits) (rest : List Char) :
    ∃ c, (digits ++ rest).head? = some c ∧ c.isDigit := by
  obtain ⟨all⟩ := isDigits
  exact ⟨_, rfl, all _ (.head _)⟩

theorem Whole.head {whole : List Char} (isWhole : Whole whole) (rest : List Char) :
    ∃ c, (whole ++ rest).head? = some c ∧ c.isDigit := by
  cases isWhole with
  | zero => exact ⟨'0', rfl, by decide⟩
  | other isDigits nonzero => exact isDigits.head rest

theorem Numeral.head {text : List Char} (numeral : Numeral text) (rest : List Char) :
    ∃ c, (text ++ rest).head? = some c ∧ (c = '-' || c.isDigit) := by
  obtain @⟨sign, whole, fraction, exponent, signed, isWhole, -, -⟩ := numeral
  cases signed with
  | missing =>
    obtain ⟨c, ahead, digit⟩ := isWhole.head (fraction ++ exponent ++ rest)
    exact ⟨c, by simpa using ahead, by simp [digit]⟩
  | there mem =>
    obtain rfl := List.mem_singleton.mp mem
    exact ⟨'-', rfl, by decide⟩

theorem Optionally.head_exponent {exponent rest : List Char} (isExponent : Optionally Exponent exponent)
    (delimited : Delimits rest) : ∀ c ∈ (exponent ++ rest).head?, ¬ c.isDigit ∧ c ≠ '.' := by
  cases isExponent with
  | missing => exact fun c ahead => ⟨delimited.not_digit c ahead, (delimited c ahead).2.1⟩
  | there isPart =>
    obtain ⟨isLetter, -, -⟩ := isPart
    rintro c ⟨⟩
    simp only [Reader.isExponentLetter, Bool.or_eq_true, decide_eq_true_eq] at isLetter
    rcases isLetter with rfl | rfl <;> decide

theorem Optionally.head_fraction {fraction rest : List Char} (isFraction : Optionally Fraction fraction)
    (ends : ∀ c ∈ rest.head?, ¬ c.isDigit) : ∀ c ∈ (fraction ++ rest).head?, ¬ c.isDigit := by
  cases isFraction with
  | missing => exact ends
  | there isPart =>
    obtain ⟨-⟩ := isPart
    rintro c ⟨⟩
    decide

namespace Reader

/-! ## Numbers -/

theorem reads_skipSomeDigits {digits rest : List Char} (isDigits : Digits digits)
    (ends : ∀ c ∈ rest.head?, ¬ c.isDigit) : skipSomeDigits.Reads digits () rest := by
  obtain ⟨all⟩ := isDigits
  have first := all _ (.head _)
  refine (reads_peek _).nil_bind ?_
  simp only [List.cons_append, List.head?_cons, Option.any_some, first, Bool.not_true,
    Bool.false_eq_true, if_false]
  exact (reads_takeWhile all ends).map fun _ => ()

theorem reads_sign {reader : Reader α} (isSign : Option Char → Prop) [DecidablePred isSign]
    {signs sign more rest : List Char} {a : α} (signed : Sign signs sign)
    (known : ∀ c ∈ signs, isSign (some c)) (unsigned : ¬ isSign (more ++ rest).head?)
    (reads : reader.Reads more a rest) :
    Reads (do
      if isSign (← peek) then
        skip
      reader) (sign ++ more) a rest := by
  refine (reads_peek _).nil_bind ?_
  cases signed with
  | missing =>
    rw [List.nil_append, if_neg unsigned]
    exact reads
  | there mem =>
    rw [List.singleton_append, List.cons_append, List.head?_cons, if_pos (known _ mem)]
    exact (reads_skip _ _).bind reads

theorem reads_skipExponent {exponent rest : List Char} (isExponent : Optionally Exponent exponent)
    (delimited : Delimits rest) : skipExponent.Reads exponent () rest := by
  refine (reads_peek _).nil_bind ?_
  cases isExponent with
  | missing =>
    rw [List.nil_append, if_neg delimited.ahead.2.2]
    exact .pure ()
  | there isPart =>
    obtain @⟨letter, sign, digits, isLetter, signed, isDigits⟩ := isPart
    obtain ⟨c, ahead, digit⟩ := isDigits.head rest
    have unsigned : ¬ (digits ++ rest).head?.any (fun c => c = '+' || c = '-') := by
      rw [ahead]
      intro isSign
      simp only [Option.any_some, Bool.or_eq_true, decide_eq_true_eq] at isSign
      rcases isSign with rfl | rfl <;> cases digit
    have digitsOn := reads_skipSomeDigits isDigits delimited.not_digit
    have signOn := reads_sign (·.any fun c => c = '+' || c = '-') signed (by simp) unsigned digitsOn
    have letterAhead : (some letter).any isExponentLetter := isLetter
    rw [List.cons_append, List.head?_cons, if_pos letterAhead]
    exact (reads_skip letter _).bind signOn

/-- The rest of a number behind the digits before the point. -/
def skipFraction : Reader Unit := do
  if (← peek) = some '.' then
    skip
    skipSomeDigits
  skipExponent

theorem reads_skipFraction {fraction exponent rest : List Char}
    (isFraction : Optionally Fraction fraction) (isExponent : Optionally Exponent exponent)
    (delimited : Delimits rest) : skipFraction.Reads (fraction ++ exponent) () rest := by
  have exponentOn := reads_skipExponent isExponent delimited
  have behind := isExponent.head_exponent delimited
  refine (reads_peek _).nil_bind ?_
  cases isFraction with
  | missing =>
    have other : ([] ++ exponent ++ rest).head? ≠ some '.' := fun point => (behind '.' point).2 rfl
    rw [if_neg other]
    exact exponentOn
  | there isPart =>
    obtain ⟨isDigits⟩ := isPart
    have digitsOn := reads_skipSomeDigits isDigits fun c mem => (behind c mem).1
    rw [List.cons_append, List.cons_append, List.head?_cons, if_pos rfl]
    exact (reads_skip '.' _).bind (digitsOn.bind exponentOn)

/-- A number behind its sign. -/
def skipUnsigned : Reader Unit := do
  if (← peek) = some '0' then
    skip
    if (← peek).any Char.isDigit then failAhead .invalidNumber
  else skipSomeDigits
  skipFraction

theorem skipNumber_eq :
    skipNumber = (do
      if (← peek) = some '-' then
        skip
      skipUnsigned) :=
  rfl

theorem reads_skipUnsigned {whole more rest : List Char} (isWhole : Whole whole)
    (ends : ∀ c ∈ (more ++ rest).head?, ¬ c.isDigit) (reads : skipFraction.Reads more () rest) :
    skipUnsigned.Reads (whole ++ more) () rest := by
  refine (reads_peek _).nil_bind ?_
  cases isWhole with
  | zero =>
    have single : ¬ (more ++ rest).head?.any Char.isDigit := by
      intro digit
      obtain ⟨c, ahead, digit⟩ := (Option.any_eq_true _ _).mp digit
      exact ends c ahead digit
    refine (reads_skip '0' _).bind ((reads_peek _).nil_bind ?_)
    rw [if_neg single]
    exact reads
  | @other c digits isDigits nonzero =>
    have other : (c :: digits ++ more ++ rest).head? ≠ some '0' := mt Option.some.inj nonzero
    rw [if_neg other]
    exact (reads_skipSomeDigits isDigits ends).bind reads

theorem reads_skipNumber {text rest : List Char} (numeral : Numeral text)
    (delimited : Delimits rest) : skipNumber.Reads text () rest := by
  obtain @⟨sign, whole, fraction, exponent, signed, isWhole, isFraction, isExponent⟩ := numeral
  have ends := isFraction.head_fraction fun c ahead => (isExponent.head_exponent delimited c ahead).1
  have fractionOn := reads_skipFraction isFraction isExponent delimited
  have wholeOn := reads_skipUnsigned isWhole (by simpa using ends) fractionOn
  have unsigned : (whole ++ (fraction ++ exponent) ++ rest).head? ≠ some '-' := by
    obtain ⟨c, ahead, digit⟩ := isWhole.head (fraction ++ exponent ++ rest)
    rw [List.append_assoc, ahead]
    rintro ⟨⟩
    cases digit
  rw [skipNumber_eq]
  exact reads_sign (· = some '-') signed (by simp) unsigned wholeOn

/-! ## Scalars -/

/-- A round of passing over a text. -/
def skipQuotedRound : Unit → Reader (Round Unit Unit) := fun () => do
  match ← peek with
  | none => failHere (.ended .string)
  | some '"' =>
    skip
    pure (.done ())
  | some '\\' =>
    skip
    skipEscape
    pure (.again ())
  | some c =>
    if isControl c then failHere .controlCharacter
    skip
    pure (.again ())

theorem skipQuoted_eq :
    skipQuoted = (do
      skip
      iterate skipQuotedRound ()) :=
  rfl

theorem reads_piece {piece : List Char} (isPiece : Piece piece) (rest : List Char) :
    (skipQuotedRound ()).Reads piece (.again ()) rest := by
  have behindSlash {written : List Char} (reads : skipEscape.Reads written () rest) :
      (skipQuotedRound ()).Reads ('\\' :: written) (.again ()) rest :=
    (reads_peek _).nil_bind ((reads_skip '\\' _).bind (reads.bind_nil (.pure _)))
  cases isPiece with
  | plain quote slash printable =>
    refine (reads_peek _).nil_bind ?_
    simp only [List.cons_append, List.head?_cons, printable]
    exact (reads_skip _ rest).bind_nil (.pure _)
  | @letter letter known =>
    have other : letter ≠ 'u' := by
      rintro rfl
      cases known
    refine behindSlash ((reads_peek _).nil_bind ?_)
    simp only [List.cons_append, List.head?_cons, known]
    exact reads_skip _ rest
  | unit hex =>
    exact behindSlash ((reads_peek _).nil_bind ((reads_skip 'u' _).bind ((hex.reads rest).map _)))

theorem rounds_pieces {written : List Char} (pieces : Pieces written) (rest : List Char) :
    Rounds skipQuotedRound rest () written () := by
  induction pieces with
  | quote => exact .done fun _ => rfl
  | @cons piece more first _ ih =>
    have moves : piece ≠ [] := by cases first <;> exact List.cons_ne_nil _ _
    exact .again (reads_piece first _) moves ih

theorem reads_skipQuoted {text : List Char} (isText : IsText text) (rest : List Char) :
    skipQuoted.Reads text () rest := by
  obtain ⟨pieces⟩ := isText
  rw [skipQuoted_eq]
  exact (reads_skip '"' _).bind (rounds_pieces pieces rest).reads

theorem reads_skipScalar {text rest : List Char} (isScalar : Scalar text) (delimited : Delimits rest) :
    skipScalar.Reads text none rest := by
  cases isScalar with
  | null | true | false => exact fun _ => rfl
  | text isText =>
    have reads := reads_skipQuoted isText rest
    obtain ⟨-⟩ := isText
    exact (reads_nextPeek (c := '"') rfl (by decide)).nil_bind (reads.bind_nil (.pure _))
  | number numeral =>
    have reads := reads_skipNumber numeral delimited
    obtain ⟨c, ahead, numeric⟩ := numeral.head rest
    refine (reads_nextPeek ahead (visible_of_numeric numeric)).nil_bind ?_
    split
    case h_8 other same =>
      cases same
      rw [if_pos numeric]
      exact reads.bind_nil (.pure _)
    all_goals cases ‹some c = _› <;> cases numeric

/-! ## Containers -/

theorem skipsSpace_skipScalar : SkipsSpace skipScalar :=
  skipsSpace_nextPeek.bind _

theorem reads_skipKey {space key gap : List Char} (blank : Blank space) (isText : IsText key)
    (blankGap : Blank gap) (rest : List Char) :
    skipKey.Reads (space ++ (key ++ (gap ++ [':']))) () rest := by
  have reads := reads_skipQuoted isText
  obtain ⟨-⟩ := isText
  refine SkipsSpace.reads (skipsSpace_nextPeek.bind _) blank ?_
  refine (reads_nextPeek (c := '"') rfl (by decide)).nil_bind ((reads _).bind ?_)
  refine SkipsSpace.reads (skipsSpace_nextPeek.bind _) blankGap ?_
  exact fun _ => rfl

theorem reads_skipInside_end {first : Bool} {container : Container} {around : List Container}
    {space : List Char} (blank : Blank space) (rest : List Char) :
    (skipInside first container around).Reads (space ++ [container.close]) (Passing.after around)
      rest := by
  refine SkipsSpace.reads (skipsSpace_nextPeek.bind _) blank ?_
  cases container <;> exact fun _ => rfl

theorem reads_skipInside_list {first : Bool} {lead space text rest : List Char}
    (separates : Separates first lead) (blank : Blank space) {c : Char}
    (ahead : (text ++ rest).head? = some c) (visible : ¬ isSpace c) (other : c ≠ ']')
    (around : List Container) :
    ∃ taken left, lead ++ space = taken ++ left ∧ Blank left ∧ (first = false → taken ≠ []) ∧
      (skipInside first .list around).Reads taken (.again (.value (.list :: around)))
        (left ++ (text ++ rest)) := by
  obtain @⟨before, after, spaceBefore, spaceAfter⟩ := separates
  have behind : Blank (after ++ space) := spaceAfter.append blank
  cases first with
  | true =>
    have item : (skipInside true .list around).Reads [] (.again (.value (.list :: around)))
        (text ++ rest) := by
      refine (reads_nextPeek ahead visible).bind_nil ?_
      simp only [Container.close, other]
      exact .pure _
    refine ⟨before ++ (after ++ space) ++ [], [], by simp [comma], blank_nil, nofun, ?_⟩
    exact SkipsSpace.reads (skipsSpace_nextPeek.bind _) (spaceBefore.append behind) item
  | false =>
    have item : (skipInside false .list around).Reads [','] (.again (.value (.list :: around)))
        (after ++ space ++ (text ++ rest)) := fun _ => rfl
    refine ⟨before ++ [','], after ++ space, by simp [comma], behind, by simp, ?_⟩
    exact SkipsSpace.reads (skipsSpace_nextPeek.bind _) spaceBefore item

theorem reads_skipInside_object {first : Bool} {lead : List Char} (labels : Labels IsText first lead)
    (rest : List Char) (around : List Container) :
    (skipInside first .object around).Reads lead (.again (.value (.object :: around))) rest := by
  obtain @⟨lead, key, gap, separates, isText, blank⟩ := labels
  obtain @⟨before, after, spaceBefore, spaceAfter⟩ := separates
  rw [List.append_assoc]
  refine SkipsSpace.reads (skipsSpace_nextPeek.bind _) spaceBefore ?_
  cases first with
  | true =>
    have keyOn := reads_skipKey blank_nil isText blank rest
    obtain ⟨-⟩ := isText
    refine SkipsSpace.reads (skipsSpace_nextPeek.bind _) spaceAfter ?_
    refine (reads_nextPeek (c := '"') rfl (by decide)).nil_bind ?_
    exact keyOn.bind_nil (.pure _)
  | false =>
    have keyOn := reads_skipKey spaceAfter isText blank rest
    refine (reads_nextPeek (c := ',') rfl (by decide)).nil_bind ?_
    exact (reads_skip ',' _).bind (keyOn.bind_nil (.pure _))

/-- Whatever leads up to an item is read, but for some of the white space. -/
theorem reads_skipInside {first : Bool} {container : Container} {lead space text rest : List Char}
    (leads : container.Leads first lead) (blank : Blank space) {c : Char}
    (ahead : (text ++ rest).head? = some c) (visible : ¬ isSpace c) (other : c ≠ ']')
    (around : List Container) :
    ∃ taken left, lead ++ space = taken ++ left ∧ Blank left ∧ (first = false → taken ≠ []) ∧
      (skipInside first container around).Reads taken (.again (.value (container :: around)))
        (left ++ (text ++ rest)) := by
  cases container with
  | list => exact reads_skipInside_list leads blank ahead visible other around
  | object =>
    have nonempty := leads.append_ne_nil []
    rw [List.append_nil] at nonempty
    exact ⟨lead, space, rfl, blank, fun _ => nonempty, reads_skipInside_object leads _ around⟩

/-- A value begins with a character that is neither white space nor the end of a list. -/
theorem begins_of_valid {text : List Char} (valid : Valid .value text) :
    ∃ c more, text = c :: more ∧ ¬ isSpace c ∧ c ≠ ']' := by
  cases valid with
  | @container container inner inside =>
    cases container <;> exact ⟨_, _, rfl, by decide, by decide⟩
  | scalar isScalar =>
    cases isScalar with
    | null | true | false => exact ⟨_, _, rfl, by decide, by decide⟩
    | text isText =>
      obtain ⟨-⟩ := isText
      exact ⟨_, _, rfl, by decide, by decide⟩
    | number numeral =>
      obtain ⟨c, ahead, numeric⟩ := numeral.head []
      rw [List.append_nil] at ahead
      obtain ⟨more, same⟩ := List.head?_eq_some_iff.mp ahead
      refine ⟨c, more, same, visible_of_numeric numeric, ?_⟩
      rintro rfl
      cases numeric

theorem delimits_inside {container : Container} {inner : List Char}
    (valid : Valid (.inside container false) inner) (rest : List Char) :
    Delimits (inner ++ container.close :: rest) := by
  cases valid with
  | done blank =>
    refine delimits_blank blank (delimits_cons _ ?_)
    cases container <;> decide
  | item leads blank value others =>
    rw [List.append_assoc, List.append_assoc]
    cases container with
    | list => exact Separates.delimits leads _
    | object => exact Labels.delimits leads _

/-- What is left to be read after a round leads to its end. -/
def Goes (rest : List Char) : Round Passing Unit → List Char → Prop
  | .done (), left => left = []
  | .again state, left => Rounds skipPart rest state left ()

theorem Goes.rounds {state : Passing} {result : Round Passing Unit} {taken left rest : List Char}
    (goes : Goes rest result left) (reads : (skipPart state).Reads taken result (left ++ rest))
    (moves : taken ≠ []) : Rounds skipPart rest state (taken ++ left) () := by
  cases result with
  | done ended =>
    obtain rfl : left = [] := goes
    rw [List.append_nil]
    exact .done reads
  | again next => exact .again reads moves goes

/-- A text is passed over whatever containers are open around it, if the rest leads out of them. -/
def Passes : Part → List Char → Prop
  | .value, text => ∀ ⦃around space more rest⦄, Blank space → Delimits (more ++ rest) →
      Goes rest (Passing.after around) more →
      Rounds skipPart rest (.value around) (space ++ text ++ more) ()
  | .inside container first, inner => ∀ ⦃around more rest⦄, Goes rest (Passing.after around) more →
      ∃ taken left result, inner ++ container.close :: more = taken ++ left ∧
        (first = false → taken ≠ []) ∧
        (skipInside first container around).Reads taken result (left ++ rest) ∧ Goes rest result left

theorem passes_of_valid {part : Part} {text : List Char} (valid : Valid part text) :
    Passes part text := by
  induction valid with
  | @scalar text isScalar =>
    intro around space more rest blank delimited goes
    have scalarOn := reads_skipScalar isScalar delimited
    have round : (skipPart (.value around)).Reads (space ++ text) (Passing.after around)
        (more ++ rest) :=
      SkipsSpace.reads (skipsSpace_skipScalar.bind _) blank (scalarOn.bind_nil (.pure _))
    obtain ⟨c, others, rfl, -⟩ := begins_of_valid (.scalar isScalar)
    exact goes.rounds round (by simp)
  | @container container inner inside ih =>
    intro around space more rest blank delimited goes
    obtain ⟨taken, left, result, split, -, reads, goes⟩ := ih goes
    have opened : skipScalar.Reads [container.opening] (some container) (taken ++ (left ++ rest)) := by
      cases container <;> exact fun _ => rfl
    have round : (skipPart (.value around)).Reads (space ++ ([container.opening] ++ taken)) result
        (left ++ rest) :=
      SkipsSpace.reads (skipsSpace_skipScalar.bind _) blank (opened.bind reads)
    have rounds := goes.rounds round (by simp)
    simpa [split] using rounds
  | @done container first space blank =>
    intro around more rest goes
    refine ⟨space ++ [container.close], more, Passing.after around, by simp, by simp, ?_, goes⟩
    exact reads_skipInside_end blank _
  | @item container first lead space text more leads blank value others ihValue ihOthers =>
    intro around behind rest goes
    obtain ⟨taken, left, result, split, moves, reads, goes⟩ := ihOthers goes
    have round : (skipPart (.behind container around)).Reads taken result (left ++ rest) := reads
    have othersOn : Goes rest (Passing.after (container :: around)) (taken ++ left) :=
      goes.rounds round (moves rfl)
    rw [← split] at othersOn
    have delimited := delimits_inside others (behind ++ rest)
    obtain ⟨c, tail, begins, visible, other⟩ := begins_of_valid value
    have ahead : (text ++ (more ++ container.close :: behind ++ rest)).head? = some c := by
      rw [begins]
      rfl
    obtain ⟨taken, left, same, blank, moves, reads⟩ :=
      reads_skipInside leads blank ahead visible other around
    have valueOn := ihValue blank (by simpa using delimited) othersOn
    refine ⟨taken, left ++ text ++ (more ++ container.close :: behind),
      .again (.value (container :: around)), ?_, moves, ?_, valueOn⟩
    · simp only [← List.append_assoc, ← same]
    · simpa using reads

/-- A value is passed over, and so is white space before it. -/
theorem takes_skipValue {text : List Char} (valid : Valid .value text) : skipValue.Takes text () := by
  intro space rest blank delimited
  have passes : Passes .value text := passes_of_valid valid
  have ended : Goes rest (Passing.after []) [] := rfl
  have rounds := passes blank (List.nil_append rest ▸ delimited) ended
  rw [List.append_nil] at rounds
  exact rounds.reads

end Reader

end Switchboard.Json

/-
# Texts of floating point numbers are read back

A sign and a decimal are read as the word nearest to the decimal, and a name of infinity as the
infinity. The fewest digits that are read as a number are laid out so that the same decimal is read
from them, and so every format without fixed places keeps all bits of a word that is a number.
-/
import VariableRegistry.Proofs.DecimalMagnitudes
import VariableRegistry.Proofs.DecimalTexts
import VariableRegistry.Proofs.ValueTexts

namespace VariableRegistry

variable {l : FloatLayout} {body : List Char} {d : Decimal}

/-! ## Signed decimals -/

namespace Decimal

theorem not_blank_of_isPart {c : Char} (hc : isPart c = true) : Text.isBlank c = false := by
  simp only [isPart, isSign, Bool.or_eq_true, decide_eq_true_eq] at hc
  obtain (((hc | rfl) | rfl) | rfl) | (rfl | rfl) := hc
  · exact of_isDigit (p := fun c => Text.isBlank c = false) (by decide) hc
  all_goals decide

/-- A decimal begins with no sign, and its first character is no letter. -/
theorem exists_first_kind (h : ofChars? body = some d) :
    ∃ c rest, body = c :: rest ∧ isSign c = false ∧ c.toLower.isLower = false := by
  obtain ⟨c, rest, rfl, hc⟩ := exists_first_of_ofChars? h
  refine ⟨c, rest, rfl, ?_⟩
  obtain hc | rfl := hc
  · exact of_isDigit (p := fun c => isSign c = false ∧ c.toLower.isLower = false) (by decide) hc
  · decide

end Decimal

namespace FloatWord

/-- A sign in front of what begins with none is taken. -/
theorem takeSign_signChars (x : FloatWord l) (body : List Char)
    (hbody : Stops Decimal.isSign body) :
    Decimal.takeSign (x.signChars ++ body) = (x.isNegative, body) := by
  rw [signChars]
  cases x.isNegative
  · exact Decimal.takeSign_of_stops hbody
  · rfl

/-- What is read as a decimal spells no name. -/
theorem spells_of_decimal {name : String} (hname : name.toList.all Char.isLower = true)
    (hbody : Decimal.ofChars? body = some d) : spells name body = false := by
  obtain ⟨c, rest, rfl, -, hc⟩ := Decimal.exists_first_kind hbody
  rw [spells, beq_eq_false_iff_ne]
  intro hspells
  rw [← hspells] at hname
  exact absurd (List.all_eq_true.1 hname _ List.mem_cons_self) (by simp [hc])

theorem namesInfinity_of_decimal (hbody : Decimal.ofChars? body = some d) :
    namesInfinity body = false := by
  rw [namesInfinity, spells_of_decimal (by decide) hbody, spells_of_decimal (by decide) hbody]
  rfl

/-- A word is written without blanks. -/
theorem trim_signChars (x : FloatWord l) (body : List Char)
    (hbody : ∀ c ∈ body, Text.isBlank c = false) :
    Text.trim (x.signChars ++ body) = x.signChars ++ body := by
  have hsign : ∀ c ∈ x.signChars, Text.isBlank c = false := by
    rw [signChars]
    split
    · exact List.forall_mem_singleton.2 rfl
    · exact List.forall_mem_nil _
  exact Text.trim_of_not_blank (List.forall_mem_append.2 ⟨hsign, hbody⟩)

end FloatWord

namespace NumType

/-- A sign and a decimal that is not too large are read as the nearest word. -/
theorem parseFloat_signed (x : FloatWord l) (hbody : Decimal.ofChars? body = some d)
    (hd : d.magnitude l < l.infinity) :
    parseFloat (String.ofList (x.signChars ++ body)) =
      .ok (d.toWord x.isNegative : FloatWord l) := by
  obtain ⟨c, rest, hfirst, hsign, -⟩ := Decimal.exists_first_kind hbody
  have htake := x.takeSign_signChars body (hfirst ▸ stops_cons.2 hsign)
  have hword : (FloatWord.ofChars? (x.signChars ++ body) : Option (FloatWord l)) =
      some (d.toWord x.isNegative) := by
    simp only [FloatWord.ofChars?, htake, FloatWord.namesInfinity_of_decimal hbody, hbody,
      FloatWord.spells_of_decimal (show "nan".toList.all Char.isLower = true by decide) hbody]
    rfl
  have hfinite : (d.toWord x.isNegative : FloatWord l).isInfinite = false := by
    rw [Decimal.toWord, FloatWord.isInfinite,
      FloatWord.magnitude_ofMagnitude _ (hd.trans (FloatWord.infinity_lt_signWeight l))]
    exact decide_eq_false hd.ne
  simp only [parseFloat, String.toList_ofList, x.trim_signChars body fun c hc =>
    Decimal.not_blank_of_isPart (Decimal.mem_of_ofChars? hbody c hc), hword, hfinite,
    Bool.false_and]
  rfl

/-- The name of the infinity with a sign is read as this infinity. -/
theorem parseFloat_infinite (x : FloatWord l) :
    parseFloat (String.ofList (x.signChars ++ ['i', 'n', 'f'])) =
      .ok (FloatWord.infinite x.isNegative : FloatWord l) := by
  have htake := x.takeSign_signChars ['i', 'n', 'f'] (stops_cons.2 rfl)
  have hname : FloatWord.namesInfinity ['i', 'n', 'f'] = true := by decide
  have htrim : Text.trim (x.signChars ++ ['i', 'n', 'f']) = x.signChars ++ ['i', 'n', 'f'] := by
    rw [FloatWord.signChars]
    split <;> rfl
  simp only [parseFloat, String.toList_ofList, htrim, FloatWord.ofChars?, htake, hname, if_true,
    Bool.not_true, Bool.and_false]
  rfl

/-- The name of what is no number is read as such a word, if the layout has one. -/
theorem parseFloat_nan (hnan : (FloatWord.nan false : FloatWord l).isNaN = true) :
    parseFloat (String.ofList ['N', 'a', 'N']) = .ok (FloatWord.nan false : FloatWord l) := by
  have htrim : Text.trim ['N', 'a', 'N'] = ['N', 'a', 'N'] := rfl
  have htake : Decimal.takeSign ['N', 'a', 'N'] = (false, ['N', 'a', 'N']) := rfl
  have hinfinity : FloatWord.namesInfinity ['N', 'a', 'N'] = false := by decide
  have hname : FloatWord.spells "nan" ['N', 'a', 'N'] = true := by decide
  have hfinite : (FloatWord.nan false : FloatWord l).isInfinite = false :=
    decide_eq_false (of_decide_eq_true hnan).ne'
  simp [parseFloat, htrim, FloatWord.ofChars?, htake, hinfinity, hname, hfinite]

end NumType

/-! ## Shortest texts -/

/-- A layout of digits does not change the value. -/
theorem Decimal.ofChars?_chars (style : FloatStyle) (d : Decimal) :
    ∃ d' : Decimal, ofChars? (d.chars style) = some d' ∧ d'.value = d.value := by
  rw [chars]
  split
  · refine ⟨_, ofChars?_positional style.pointZero d, ?_⟩
    split
    · rfl
    · next hexponent =>
      obtain ⟨n, hn⟩ := Int.eq_ofNat_of_zero_le (Int.not_lt.1 hexponent)
      simp only [value, hn, Int.toNat_natCast, zpow_natCast]
      split
      · rw [zpow_neg_one]
        push_cast
        rw [pow_succ]
        field_simp
      · rw [zpow_zero, mul_one]
        push_cast
        rfl
  · exact ⟨d, ofChars?_scientific style.plusSign d, rfl⟩

namespace FloatWord

variable {x : FloatWord l}

/-- **The fewest digits are enough**: however they are laid out, the text of a number or of an
infinity is read as the word itself, with its sign. -/
theorem parseFloat_shortestChars (hl : l.ReachesWhole) (style : FloatStyle) (hx : x.isNaN = false) :
    NumType.parseFloat (String.ofList (x.shortestChars style)) = .ok x := by
  rw [shortestChars, if_neg (by rw [hx]; decide)]
  cases hinfinite : x.isInfinite with
  | true =>
    have hmagnitude : x.magnitude = l.infinity := of_decide_eq_true hinfinite
    rw [if_pos rfl, NumType.parseFloat_infinite, infinite, ← hmagnitude, ofMagnitude_magnitude]
  | false =>
    have hfinite : x.IsFinite := isFinite_iff.2 ⟨hx, hinfinite⟩
    obtain ⟨d, hread, hvalue⟩ := Decimal.ofChars?_chars style (x.shortest style.tie)
    have hmagnitude : d.magnitude l = x.magnitude :=
      (Decimal.magnitude_congr hl hvalue).trans (magnitude_shortest hl style.tie hfinite)
    rw [if_neg (by decide), NumType.parseFloat_signed x hread (hmagnitude.trans_lt hfinite),
      Decimal.toWord, hmagnitude, ofMagnitude_magnitude]

end FloatWord

namespace NumType

/-- In a format every word is read back from its text: a number or an infinity with all its bits,
and what is no number as something that is none. -/
structure KeepsWords (l : FloatLayout) (format : Format) : Prop where
  word (x : FloatWord l) (hx : x.isNaN = false) : parseFloat (renderFloat x format) = .ok x
  nan (x : FloatWord l) (hx : x.isNaN = true) :
    ∃ y : FloatWord l, parseFloat (renderFloat x format) = .ok y ∧ y.isNaN = true

theorem keepsWords (hl : l.ReachesWhole) (hnan : (FloatWord.nan false : FloatWord l).isNaN = true)
    {format : Format} (hformat : format.places? = none) : KeepsWords l format where
  word x hx := by
    simp only [renderFloat, hformat]
    exact FloatWord.parseFloat_shortestChars hl _ hx
  nan x hx := by
    refine ⟨FloatWord.nan false, ?_, hnan⟩
    have hname :
        (if format = .sci then FloatStyle.scientific else FloatStyle.positional).nan.toList =
          ['N', 'a', 'N'] := by split <;> rfl
    simp only [renderFloat, hformat, FloatWord.shortestChars, hx, if_true, hname]
    exact parseFloat_nan hnan

/-- **Texts without fixed places lose nothing.** In every format but those of one to four places,
the text of a `FLOAT` and of a `DOUBLE`, be it a number of any size, a zero or an infinity, is read
as the word that was written. What is no number is read as what is none. -/
theorem parseFloat_renderFloat (format : Format)
    (hformat : format ∉ [Format.prec1, .prec2, .prec3, .prec4]) :
    KeepsWords .single format ∧ KeepsWords .double format := by
  have hplaces : format.places? = none := by
    cases format <;> first | rfl | exact absurd hformat (by decide)
  exact ⟨keepsWords FloatLayout.single_reachesWhole (by decide) hplaces,
    keepsWords FloatLayout.double_reachesWhole (by decide) hplaces⟩

/-- The negative zero and the smallest positive number are read back, and so is what is none. -/
theorem parseFloat_renderFloat_sci :
    parseFloat (renderFloat (.zero true : Single) .sci) = .ok (.zero true : Single) ∧
      parseFloat (renderFloat (.ofMagnitude false 1 : Double) .sci) =
        .ok (.ofMagnitude false 1 : Double) ∧
      ∃ y : Single, parseFloat (renderFloat (.nan true : Single) .sci) = .ok y ∧ y.isNaN = true :=
  have h := parseFloat_renderFloat .sci (by decide)
  ⟨h.1.word _ (by decide), h.2.word _ (by decide), h.1.nan _ (by decide)⟩

end NumType

end VariableRegistry

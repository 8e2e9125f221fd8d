import Mathlib
import WindowQuery.Frame.TypeName

/-!
# Names of types in either case

The base name of a type is in capitals, so it should not matter in which case the
type is declared. It does not, although the name is cut at a parenthesis and into
words before it is put in capitals: only the small letters have a capital that
differs from them, and neither they nor their capitals are a parenthesis or blank
(`Text.toUpper_eq`).

A column that names series is checked twice, against a list of names in small
letters and against the type that its own name stands for. The list is only of
names that stand for barred types, so the first check never decides anything:
`resolve_eq` says what a header resolves to without it. The list is compared with
a base name in small letters, and a name of the list in capitals is a base name,
which is why the two agree on base names and not on every text.
-/

namespace WindowQuery

/-! ## Capitals -/

namespace Text

/-- **Only the small letters have a capital** that differs from them. -/
theorem toUpper_eq (c : Char) :
    c.toUpper = c ∨ (97 ≤ c.toNat ∧ c.toNat ≤ 122 ∧ c.toUpper.toNat = c.toNat - 32) := by
  by_cases h : c.isLower = true
  · right
    obtain ⟨hlow, hhigh⟩ : 97 ≤ c.toNat ∧ c.toNat ≤ 122 := by
      simpa [Char.isLower, UInt32.le_iff_toNat_le] using h
    have hvalid : (c.toNat - 32).isValidChar := .inl (by omega)
    refine ⟨hlow, hhigh, ?_⟩
    rw [Char.toUpper_eq_of_isLower h, Char.toNat_ofNat, if_pos hvalid]
  · exact .inl (Char.toUpper_eq_of_not_isLower h)

theorem isBlank_toUpper (c : Char) : isBlank c.toUpper = isBlank c := by
  rcases toUpper_eq c with h | ⟨hlow, hhigh, h⟩
  · rw [h]
  · rw [Bool.eq_iff_iff]
    simp only [isBlank, h, Bool.or_eq_true, Bool.and_eq_true, decide_eq_true_eq, beq_iff_eq]
    omega

theorem toUpper_bne_paren (c : Char) : (c.toUpper != '(') = (c != '(') := by
  rcases toUpper_eq c with h | ⟨hlow, hhigh, h⟩
  · rw [h]
  · have hne : ∀ d : Char, 57 ≤ d.toNat → (d != '(') = true := fun d hd =>
      bne_iff_ne.2 (fun heq => absurd (heq ▸ hd) (by decide))
    rw [hne c (by omega), hne c.toUpper (by omega)]

/-- **A text is cut into words in the same places** when its characters are
changed and its blanks are not. -/
theorem words_map {f : Char → Char} (hf : ∀ c, isBlank (f c) = isBlank c) (cs : List Char) :
    words (cs.map f) = (words cs).map (List.map f) := by
  have hsplit : (cs.map f).splitOnP isBlank = (cs.splitOnP isBlank).map (List.map f) := by
    induction cs with
    | nil => rfl
    | cons c cs ih =>
      rw [List.map_cons, List.splitOnP_cons_eq_if_modifyHead,
        List.splitOnP_cons_eq_if_modifyHead, hf, ih]
      split
      · rfl
      · cases cs.splitOnP isBlank <;> rfl
  rw [words, words, hsplit, List.filter_map]
  congr 2
  funext w
  cases w <;> rfl

/-- Changed words are joined to what their joined text is changed to. -/
theorem intercalate_map (f : Char → Char) (sep : List Char) :
    (ws : List (List Char)) →
      (sep.map f).intercalate (ws.map (List.map f)) = (sep.intercalate ws).map f
  | [] => rfl
  | [w] => by simp
  | w :: v :: ws => by
    have ih := intercalate_map f sep (v :: ws)
    rw [List.map_cons] at ih
    rw [List.map_cons, List.map_cons, List.intercalate_cons_cons, List.intercalate_cons_cons, ih,
      List.map_append, List.map_append]

end Text

/-! ## Base names -/

namespace TypeName

/-- **The base name does not depend on case.** -/
theorem base_toUpper (typeName : String) : base typeName.toUpper = base typeName := by
  have htake : typeName.toUpper.toList.takeWhile (· != '(')
      = (typeName.toList.takeWhile (· != '(')).map Char.toUpper := by
    have hclass : (fun c : Char => c != '(') ∘ Char.toUpper = (· != '(') :=
      funext Text.toUpper_bne_paren
    rw [String.toUpper, String.toList_map, List.takeWhile_map, hclass]
  have htwice : Char.toUpper ∘ Char.toUpper = Char.toUpper :=
    funext Char.toUpper_toUpper_eq_toUpper
  -- the blank between words is a capital of itself
  have hjoin : ∀ ws : List (List Char), [' '].intercalate (ws.map (List.map Char.toUpper))
      = ([' '].intercalate ws).map Char.toUpper := Text.intercalate_map Char.toUpper [' ']
  unfold base
  dsimp only
  rw [htake, Text.words_map Text.isBlank_toUpper, hjoin, List.map_map, htwice]

/-- A base name in small letters is put back in capitals by another capital for each
letter. -/
theorem map_toUpper_lowered_base (typeName : String) :
    ((base typeName).toList.map Char.toLower).map Char.toUpper = (base typeName).toList := by
  unfold base
  dsimp only
  rw [String.toList_ofList, List.map_map, List.map_map]
  refine List.map_congr_left (fun c _ => ?_)
  show c.toUpper.toLower.toUpper = c.toUpper
  rw [Char.toUpper_toLower_eq_toUpper, Char.toUpper_toUpper_eq_toUpper]

/-! ## The types that may not name series -/

/-- The listed names are their own base names, but for the capitals, and these stand
for times and numbers. -/
theorem base_barredNames : ∀ name ∈ barredNames,
    base name = String.ofList (name.toList.map Char.toUpper) ∧
      (typeOfBase (base name) = .known .time ∨ typeOfBase (base name) = .known .integer ∨
        typeOfBase (base name) = .known .float) := by
  decide +kernel

theorem exists_isBarred {name : String} (h : name ∈ barredNames) :
    ∃ t, typeOfBase (base name) = .known t ∧ isBarred t = true := by
  rcases (base_barredNames name h).2 with ht | ht | ht
  · exact ⟨.time, ht, rfl⟩
  · exact ⟨.integer, ht, rfl⟩
  · exact ⟨.float, ht, rfl⟩

/-- **The list of names adds nothing to the types.** A base name that is listed stands
for a type that is barred, so a base name is barred just if its type is. -/
theorem isBarredBase_base_iff (typeName : String) :
    isBarredBase (base typeName) = true ↔
      ∃ t, typeOfBase (base typeName) = .known t ∧ isBarred t = true := by
  rw [isBarredBase, Bool.or_eq_true]
  constructor
  · rintro (hlisted | htype)
    · have hmem := List.contains_iff_mem.1 hlisted
      have hbase := (base_barredNames _ hmem).1
      rw [String.toList_ofList, map_toUpper_lowered_base, String.ofList_toList] at hbase
      rw [← hbase]
      exact exists_isBarred hmem
    · cases ht : typeOfBase (base typeName) with
      | known t => exact ⟨t, rfl, by rwa [ht] at htype⟩
      | unknown => rw [ht] at htype; cases htype
  · rintro ⟨t, ht, hbarred⟩
    rw [ht]
    exact .inr hbarred

/-! ## Types of columns -/

/-- **What a header resolves to**, told from the type of its base name alone. -/
theorem resolve_eq (h : Header) (timeGrouped : Bool) :
    resolve h timeGrouped =
      if h.name = timeName ∧ timeGrouped = true then .ok (.known .time)
      else
        match typeOfBase (base h.typeName) with
        | .known t =>
          if h.name = metricName ∧ isBarred t = true then
            .error (.typeConflict metricName (.declared h.typeName (.known t)))
          else .ok (.known t)
        | .unknown => .ok .unknown := by
  have hiff := isBarredBase_base_iff h.typeName
  unfold resolve
  -- the list could only decide where the type is not barred, and there no name is listed
  cases ht : typeOfBase (base h.typeName) with
  | known t =>
    have hbarred : isBarredBase (base h.typeName) = isBarred t := by
      rw [Bool.eq_iff_iff, hiff, ht]
      exact ⟨fun ⟨_, hu, hb⟩ => SemanticType.known.inj hu ▸ hb, fun hb => ⟨t, rfl, hb⟩⟩
    rw [hbarred]
  | unknown =>
    have hfree : ¬isBarredBase (base h.typeName) = true := fun hb => by
      obtain ⟨_, hu, -⟩ := hiff.1 hb
      rw [ht] at hu
      cases hu
    rw [if_neg (fun hc : h.name = metricName ∧ _ => hfree hc.2)]

/-- **A type name that resolves, resolves to the type of its base name**, unless
the column is the time of a grouped query. -/
theorem typeOfBase_of_resolve {h : Header} {timeGrouped : Bool} {t : SemanticType}
    (hname : ¬(h.name = timeName ∧ timeGrouped = true)) (ht : resolve h timeGrouped = .ok t) :
    typeOfBase (base h.typeName) = t := by
  rw [resolve, if_neg hname] at ht
  split at ht
  · cases ht
  · exact Except.ok.inj ht

end TypeName

end WindowQuery

import TextWorld.Error

/-!
Keys of the form `basic@zone`. A key and its text determine each other, and keys are ordered as
their texts are.
-/

namespace TextWorld

/-- A key scoped to a zone: two texts, neither empty nor with an `@`. -/
structure ZonedKey where
  basic : String
  zone : String
  basic_ne : basic ≠ ""
  zone_ne : zone ≠ ""
  basic_bare : '@' ∉ basic.toList
  zone_bare : '@' ∉ zone.toList
  deriving DecidableEq

namespace ZonedKey

def text (key : ZonedKey) : String := key.basic ++ "@" ++ key.zone

def shown (key : ZonedKey) : String := "ZonedKey(" ++ key.text ++ ")"

/-- The texts in front of and behind the only `@` of `text`. -/
def halves (text : String) : Except KeyProblem (String × String) :=
  match text.toList.dropWhile (· ≠ '@') with
  | [] => .error .noSeparator
  | _ :: zone =>
    if '@' ∈ zone then .error .manySeparators
    else .ok (String.ofList (text.toList.takeWhile (· ≠ '@')), String.ofList zone)

def split (text : String) : Except Error (String × String) :=
  (halves text).mapError (.invalidKey text)

theorem bare_of_split {text basic zone : String} (h : split text = .ok (basic, zone)) :
    '@' ∉ basic.toList ∧ '@' ∉ zone.toList := by
  rw [split, halves] at h
  split at h
  · cases h
  · split at h
    · cases h
    · rename_i hzone
      cases h
      rw [String.toList_ofList, String.toList_ofList]
      refine ⟨fun hmem => ?_, hzone⟩
      simpa using List.all_eq_true.1 List.all_takeWhile '@' hmem

/-- Reads a scoped key. -/
def parse (text : String) : Except Error ZonedKey :=
  match h : split text with
  | .error e => .error e
  | .ok (basic, zone) =>
    if hempty : basic = "" ∨ zone = "" then .error (.invalidKey text .emptyPart)
    else
      have hne := not_or.1 hempty
      have hbare := bare_of_split h
      .ok ⟨basic, zone, hne.1, hne.2, hbare.1, hbare.2⟩

def ofParts (basic zone : String) : Except Error ZonedKey :=
  let text := basic ++ "@" ++ zone
  if basic = "" ∨ zone = "" then .error (.invalidKey text .emptyPart) else parse text

/-- Reads a key, scoping a bare one to `defaultZone`. -/
def resolve (text defaultZone : String) : Except Error ZonedKey :=
  if text = "" then .error (.invalidKey text .empty)
  else
    match text.toList.count '@' with
    | 0 => ofParts text defaultZone
    | 1 => parse text
    | _ => .error (.invalidKey text .manySeparators)

theorem toList_text (key : ZonedKey) :
    key.text.toList = key.basic.toList ++ '@' :: key.zone.toList := by
  simp [text, String.toList_append]

theorem split_text (key : ZonedKey) : split key.text = .ok (key.basic, key.zone) := by
  have hbare : ∀ c ∈ key.basic.toList, decide (c ≠ '@') = true := fun c hc =>
    decide_eq_true fun heq => key.basic_bare (heq ▸ hc)
  have hhalves : halves key.text = .ok (key.basic, key.zone) := by
    rw [halves, toList_text, List.dropWhile_append_of_pos hbare,
      List.takeWhile_append_of_pos hbare]
    simp [key.zone_bare]
  rw [split, hhalves]
  rfl

/-- Two keys with one text are equal. -/
theorem text_injective {a b : ZonedKey} (h : a.text = b.text) : a = b := by
  have hsplit := split_text a
  rw [h, split_text b] at hsplit
  cases a; cases b; simp_all

theorem parse_text (key : ZonedKey) : parse key.text = .ok key := by
  rw [parse]
  split
  · rename_i e h
    rw [split_text] at h
    cases h
  · rename_i basic zone h
    rw [split_text] at h
    cases h
    rw [dif_neg (not_or.2 ⟨key.basic_ne, key.zone_ne⟩)]

instance : Ord ZonedKey := ⟨compareOn text⟩

instance : Std.TransOrd ZonedKey :=
  inferInstanceAs (Std.TransCmp (compareOn text))

instance : Std.LawfulEqOrd ZonedKey where
  compare_self {a} := by
    change compare a.text a.text = .eq
    exact Std.ReflCmp.compare_self
  eq_of_compare {a b} h := by
    change compare a.text b.text = .eq at h
    exact text_injective (Std.LawfulEqCmp.eq_of_compare h)

end ZonedKey

end TextWorld

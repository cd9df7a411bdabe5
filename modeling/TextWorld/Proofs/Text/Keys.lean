import TextWorld.ZonedKey

/-!
Keys and their texts. A key is its text together with the place of the `@` in it, and whichever way
it is come by, taking the text apart and putting it together again leads back to the same key.
-/

namespace TextWorld

/-- The text between two bytes, if each of them is where a character begins or the text ends. -/
def slice? (text : String) (start stop : Nat) : Option String :=
  if h : (⟨start⟩ : String.Pos.Raw).IsValid text ∧ (⟨stop⟩ : String.Pos.Raw).IsValid text ∧
      start ≤ stop then
    some (String.extract (s := text) ⟨⟨start⟩, h.1⟩ ⟨⟨stop⟩, h.2.1⟩)
  else none

/-- Whatever stands around it, a text is sliced out of another from its first byte to its last. -/
theorem slice?_append (front text back : String) :
    slice? (front ++ text ++ back) front.utf8ByteSize (front.utf8ByteSize + text.utf8ByteSize) =
      some text := by
  have hstart : (⟨front.utf8ByteSize⟩ : String.Pos.Raw).IsValid (front ++ text ++ back) :=
    String.Pos.Raw.isValid_iff_exists_append.2 ⟨front, text ++ back, String.append_assoc, rfl⟩
  have hstop : (⟨front.utf8ByteSize + text.utf8ByteSize⟩ : String.Pos.Raw).IsValid
      (front ++ text ++ back) :=
    String.Pos.Raw.isValid_iff_exists_append.2
      ⟨front ++ text, back, rfl, by rw [String.rawEndPos, String.utf8ByteSize_append]⟩
  rw [slice?, dif_pos ⟨hstart, hstop, Nat.le_add_right _ _⟩, Option.some.injEq,
    ← String.toByteArray_inj]
  calc (front ++ text ++ back).toByteArray.extract front.utf8ByteSize
        (front.utf8ByteSize + text.utf8ByteSize)
      = (front.toByteArray ++ (text.toByteArray ++ back.toByteArray)).extract
          (front.utf8ByteSize + 0) (front.utf8ByteSize + text.utf8ByteSize) := by
        rw [String.toByteArray_append, String.toByteArray_append, ByteArray.append_assoc,
          Nat.add_zero]
    _ = (text.toByteArray ++ back.toByteArray).extract 0 text.utf8ByteSize :=
        ByteArray.extract_append_size_add' String.size_toByteArray.symm
    _ = text.toByteArray := ByteArray.extract_append_eq_left String.size_toByteArray.symm

namespace ZonedKey

variable {key other : ZonedKey} {text basic zone full : String}

/-- A text that can stand on one side of the `@`. -/
def IsPart (text : String) : Prop := text ≠ "" ∧ '@' ∉ text.toList

/-- A text with exactly one `@` in it, and something on either side. -/
def IsScoped (text : String) : Prop :=
  ∃ basic zone, IsPart basic ∧ IsPart zone ∧ text = basic ++ "@" ++ zone

/-- A key as it is stored. -/
structure Stored where
  text : String
  /-- How many bytes stand in front of the `@`. -/
  separator : Nat
  deriving DecidableEq

namespace Stored

/-- What is sliced out in front of the `@`. -/
def basic? (s : Stored) : Option String := slice? s.text 0 s.separator

/-- What is sliced out behind the `@`. -/
def zone? (s : Stored) : Option String := slice? s.text (s.separator + 1) s.text.utf8ByteSize

/-- Stored keys are ordered by their texts, and then by the place of the `@`. -/
instance : Ord Stored := ⟨compareLex (compareOn Stored.text) (compareOn Stored.separator)⟩

end Stored

def stored (key : ZonedKey) : Stored := ⟨key.text, key.basic.utf8ByteSize⟩

theorem isPart_basic (key : ZonedKey) : IsPart key.basic := ⟨key.basic_ne, key.basic_bare⟩

theorem isPart_zone (key : ZonedKey) : IsPart key.zone := ⟨key.zone_ne, key.zone_bare⟩

theorem exists_of_parts (hbasic : IsPart basic) (hzone : IsPart zone) :
    ∃ key : ZonedKey, key.basic = basic ∧ key.zone = zone :=
  ⟨⟨basic, zone, hbasic.1, hzone.1, hbasic.2, hzone.2⟩, rfl, rfl⟩

theorem isScoped_iff : IsScoped text ↔ ∃ key : ZonedKey, key.text = text := by
  constructor
  · rintro ⟨basic, zone, hbasic, hzone, rfl⟩
    obtain ⟨key, rfl, rfl⟩ := exists_of_parts hbasic hzone
    exact ⟨key, rfl⟩
  · rintro ⟨key, rfl⟩
    exact ⟨key.basic, key.zone, key.isPart_basic, key.isPart_zone, rfl⟩

theorem count_text (key : ZonedKey) : key.text.toList.count '@' = 1 := by
  rw [toList_text, List.count_append, List.count_cons_self,
    List.count_eq_zero_of_not_mem key.basic_bare, List.count_eq_zero_of_not_mem key.zone_bare]

theorem text_ne (key : ZonedKey) : key.text ≠ "" := by
  intro h
  have hcount := key.count_text
  rw [h] at hcount
  cases hcount

/-! Taking texts apart. -/

/-- The halves of a text make it up again. -/
theorem eq_of_split (h : split text = .ok (basic, zone)) : text = basic ++ "@" ++ zone := by
  unfold ZonedKey.split halves at h
  split at h
  · cases h
  · rename_i c zone' hrest
    split at h
    · cases h
    · cases h
      -- What the search stops at is an `@`.
      have hc : c = '@' := by
        have hstop := List.head?_dropWhile_not (· ≠ '@') text.toList
        rw [hrest] at hstop
        simpa using hstop
      subst hc
      have hsplit := List.takeWhile_append_dropWhile (p := (· ≠ '@')) (l := text.toList)
      rw [hrest] at hsplit
      rw [← String.toList_inj]
      simpa [String.toList_append] using hsplit.symm

/-- A text is read as a key if it is the text of the key. -/
theorem parse_eq_ok_iff : parse text = .ok key ↔ key.text = text := by
  constructor
  · intro h
    rw [parse] at h
    split at h
    · cases h
    · rename_i basic zone hsplit
      split at h
      · cases h
      · cases h
        exact (eq_of_split hsplit).symm
  · rintro rfl
    exact parse_text key

/-- Two halves are put together to the key that has them. -/
theorem ofParts_eq_ok_iff : ofParts basic zone = .ok key ↔ key.basic = basic ∧ key.zone = zone := by
  constructor
  · intro h
    unfold ofParts at h
    split at h
    · cases h
    · rename_i hne
      obtain ⟨hbasic, hzone⟩ := not_or.1 hne
      have htext : key.text = basic ++ "@" ++ zone := parse_eq_ok_iff.1 h
      -- A key has one `@` only, so there is none in the halves.
      have hcount := key.count_text
      rw [htext, String.toList_append, String.toList_append, List.count_append,
        List.count_append] at hcount
      have hbare : '@' ∉ basic.toList ∧ '@' ∉ zone.toList := by
        rw [← List.count_eq_zero, ← List.count_eq_zero]
        have hone : "@".toList.count '@' = 1 := rfl
        omega
      obtain ⟨key', rfl, rfl⟩ := exists_of_parts ⟨hbasic, hbare.1⟩ ⟨hzone, hbare.2⟩
      obtain rfl : key = key' := text_injective htext
      exact ⟨rfl, rfl⟩
  · rintro ⟨rfl, rfl⟩
    rw [ofParts, if_neg (not_or.2 ⟨key.basic_ne, key.zone_ne⟩)]
    exact parse_text key

/-- A bare text becomes a key with the zone that goes with it, and a scoped one is left as it is. -/
theorem resolve_eq_ok_iff : resolve text zone = .ok key ↔
    key.basic = text ∧ key.zone = zone ∨ key.text = text := by
  constructor
  · intro h
    unfold resolve at h
    split at h
    · cases h
    · split at h
      · exact .inl (ofParts_eq_ok_iff.1 h)
      · exact .inr (parse_eq_ok_iff.1 h)
      · cases h
  · rintro (⟨rfl, rfl⟩ | rfl)
    · have hcount : key.basic.toList.count '@' = 0 := List.count_eq_zero.2 key.basic_bare
      rw [resolve, if_neg key.basic_ne, hcount]
      exact ofParts_eq_ok_iff.2 ⟨rfl, rfl⟩
    · rw [resolve, if_neg key.text_ne, key.count_text]
      exact parse_text key

/-! Keys as they are stored. -/

theorem basic?_stored (key : ZonedKey) : key.stored.basic? = some key.basic := by
  have hslice := slice?_append "" key.basic ("@" ++ key.zone)
  rwa [String.empty_append, ← String.append_assoc, String.utf8ByteSize_empty, Nat.zero_add]
    at hslice

theorem zone?_stored (key : ZonedKey) : key.stored.zone? = some key.zone := by
  have hslice := slice?_append (key.basic ++ "@") key.zone ""
  rwa [String.append_empty, ← String.utf8ByteSize_append, String.utf8ByteSize_append] at hslice

theorem stored_eq_iff : key.stored = other.stored ↔ key.text = other.text := by
  constructor
  · exact congrArg Stored.text
  · intro h
    rw [text_injective h]

/-- The texts decide which of two stored keys comes first: where they are equal, so are the places
of the `@`. -/
theorem compare_stored (key other : ZonedKey) :
    compare key.stored other.stored = compare key.text other.text := by
  change (compare key.text other.text).then
    (compare key.stored.separator other.stored.separator) = _
  cases htext : compare key.text other.text with
  | lt => rfl
  | gt => rfl
  | eq =>
    have heq : key = other := text_injective (Std.LawfulEqCmp.eq_of_compare htext)
    rw [heq]
    exact Std.compare_self

/-- What makes a key canonical: it is stored as its two parts with the `@` between them, they are
sliced out of it again, and it comes out whichever way it is put together. -/
structure Canonical (key : ZonedKey) : Prop where
  text : key.stored.text = key.basic ++ "@" ++ key.zone
  basic : IsPart key.basic
  zone : IsPart key.zone
  basicSlice : key.stored.basic? = some key.basic
  zoneSlice : key.stored.zone? = some key.zone
  split : split key.text = .ok (key.basic, key.zone)
  parse : parse key.text = .ok key
  ofParts : ofParts key.basic key.zone = .ok key
  resolve : ∀ zone, resolve key.text zone = .ok key

theorem canonical (key : ZonedKey) : key.Canonical where
  text := rfl
  basic := key.isPart_basic
  zone := key.isPart_zone
  basicSlice := key.basic?_stored
  zoneSlice := key.zone?_stored
  split := key.split_text
  parse := key.parse_text
  ofParts := ofParts_eq_ok_iff.2 ⟨rfl, rfl⟩
  resolve _ := resolve_eq_ok_iff.2 (.inr rfl)

/-- A bare text is scoped to the zone that goes with it and a scoped one is left as it is; reading
and putting together yield the key with this text or these parts and no other. Every key is
canonical, and its text alone says which one it is and where it comes in the order. -/
theorem keys_canonical :
    (∀ text zone full, (∃ key, resolve text zone = .ok key ∧ key.text = full) ↔
      (IsPart text ∧ IsPart zone ∧ full = text ++ "@" ++ zone) ∨ (IsScoped text ∧ full = text)) ∧
    (∀ text key, parse text = .ok key ↔ key.text = text) ∧
    (∀ basic zone key, ofParts basic zone = .ok key ↔ key.basic = basic ∧ key.zone = zone) ∧
    ∀ key : ZonedKey, key.Canonical ∧ ∀ other : ZonedKey,
      (key = other ↔ key.text = other.text) ∧ (key.stored = other.stored ↔ key.text = other.text) ∧
        compare key other = compare key.text other.text ∧
          compare key.stored other.stored = compare key.text other.text := by
  refine ⟨fun text zone full => ?_, fun _ _ => parse_eq_ok_iff, fun _ _ _ => ofParts_eq_ok_iff,
    fun key => ⟨key.canonical, fun other => ⟨⟨congrArg ZonedKey.text, text_injective⟩,
      stored_eq_iff, rfl, compare_stored key other⟩⟩⟩
  constructor
  · rintro ⟨key, hkey, rfl⟩
    rcases resolve_eq_ok_iff.1 hkey with ⟨rfl, rfl⟩ | rfl
    · exact .inl ⟨key.isPart_basic, key.isPart_zone, rfl⟩
    · exact .inr ⟨isScoped_iff.2 ⟨key, rfl⟩, rfl⟩
  · rintro (⟨htext, hzone, rfl⟩ | ⟨hscoped, rfl⟩)
    · obtain ⟨key, rfl, rfl⟩ := exists_of_parts htext hzone
      exact ⟨key, resolve_eq_ok_iff.2 (.inl ⟨rfl, rfl⟩), rfl⟩
    · obtain ⟨key, rfl⟩ := isScoped_iff.1 hscoped
      exact ⟨key, resolve_eq_ok_iff.2 (.inr rfl), rfl⟩

end ZonedKey

end TextWorld

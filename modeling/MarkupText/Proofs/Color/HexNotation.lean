import MarkupText.Color.Notation
import MarkupText.Proofs.Text.Visible

/-!
# Colors in hexadecimal digits

A character is a digit by its lower case (`hexValue?_eq_some_iff`), so the case of a notation does
not matter. `Color.ofHex?` reads the notations of three, four, six and eight digits, and `Color.hex`
spells out what was read (`Color.hex_of_ofHex?`). The reader of all notations takes them with blanks
around (`Color.ofText?_of_ofHex?`): no color function begins in front of them, and no keyword
consists of digits.
-/

namespace MarkupText

open Text

variable {t lead trail : Text} {c : Color} {x : Char} {v : Nat} {vs : List Nat}

/-! ### Digits -/

/-- What can be checked for each of the first 128 characters holds for all of them. -/
theorem forall_ascii {P : Char → Prop} (h : ∀ n < 128, P (Char.ofNat n)) :
    ∀ x : Char, x.toNat < 128 → P x := fun x hx => by
  have := h x.toNat hx
  rwa [Char.ofNat_toNat] at this

theorem toNat_lt_of_hexValue? (h : hexValue? x = some v) : x.toNat < 128 := by
  have hle {y : Char} (hy : y.toNat < 128) (hxy : x ≤ y) : x.toNat < 128 :=
    Nat.lt_of_le_of_lt (UInt32.le_iff_toNat_le.1 hxy) hy
  unfold hexValue? at h
  split at h
  · rename_i hx
    exact hle (by decide) hx.2
  · split at h
    · rename_i hx
      exact hle (by decide) hx.2
    · split at h
      · rename_i hx
        exact hle (by decide) hx.2
      · cases h

theorem toNat_lt_of_toLower (h : x.toLower.toNat < 128) : x.toNat < 128 := by
  unfold Char.toLower at h
  split at h
  · rename_i hx
    exact Nat.lt_of_le_of_lt (UInt32.le_iff_toNat_le.1 hx.2) (by decide)
  · exact h

/-- A character is a digit by its lower case. -/
theorem hexValue?_eq_some_iff : hexValue? x = some v ↔ v < 16 ∧ x.toLower = hexDigit v := by
  constructor
  · intro h
    have hread : ∀ x : Char, x.toNat < 128 →
        ∀ v ∈ hexValue? x, v < 16 ∧ x.toLower = hexDigit v := forall_ascii (by decide +kernel)
    exact hread x (toNat_lt_of_hexValue? h) v h
  · rintro ⟨hv, h⟩
    have hdigit : ∀ v < 16, (hexDigit v).toNat < 128 := by decide
    have hwritten : ∀ x : Char, x.toNat < 128 →
        ∀ v < 16, x.toLower = hexDigit v → hexValue? x = some v := forall_ascii (by decide +kernel)
    exact hwritten x (toNat_lt_of_toLower (h ▸ hdigit v hv)) v hv h

theorem not_isBlank_of_hexValue? (h : hexValue? x = some v) : isBlank x = false := by
  have hread : ∀ x : Char, x.toNat < 128 → ∀ v ∈ hexValue? x, isBlank x = false :=
    forall_ascii (by decide +kernel)
  exact hread x (toNat_lt_of_hexValue? h) v h

/-- A text of digits has the values that its lower case writes. -/
theorem mapM_hexValue?_eq_some_iff :
    t.mapM hexValue? = some vs ↔ (∀ v ∈ vs, v < 16) ∧ toLower t = vs.map hexDigit := by
  induction t generalizing vs with
  | nil => cases vs <;> simp [toLower]
  | cons x t ih =>
    rw [List.mapM_cons]
    constructor
    · intro h
      obtain ⟨v, hv, h⟩ := Option.bind_eq_some_iff.1 h
      obtain ⟨vs, hvs, h⟩ := Option.bind_eq_some_iff.1 h
      obtain rfl := Option.some.inj h
      obtain ⟨hlt, hx⟩ := hexValue?_eq_some_iff.1 hv
      obtain ⟨hlts, ht⟩ := ih.1 hvs
      exact ⟨List.forall_mem_cons.2 ⟨hlt, hlts⟩, congrArg₂ List.cons hx ht⟩
    · rintro ⟨hlt, h⟩
      cases vs with
      | nil => cases h
      | cons v vs =>
        obtain ⟨hx, ht⟩ := List.cons.inj h
        obtain ⟨hv, hvs⟩ := List.forall_mem_cons.1 hlt
        rw [hexValue?_eq_some_iff.2 ⟨hv, hx⟩, ih.2 ⟨hvs, ht⟩]
        rfl

theorem exists_hexValue?_of_mem (h : t.mapM hexValue? = some vs) (hx : x ∈ t) :
    ∃ v, hexValue? x = some v := by
  obtain ⟨hlt, ht⟩ := mapM_hexValue?_eq_some_iff.1 h
  have hmem : x.toLower ∈ vs.map hexDigit := ht ▸ List.mem_map_of_mem hx
  obtain ⟨v, hv, hxv⟩ := List.mem_map.1 hmem
  exact ⟨v, hexValue?_eq_some_iff.2 ⟨hlt v hv, hxv.symm⟩⟩

namespace Color

/-! ### Channels -/

theorem channel_digits (v : UInt8) : channel (v.toNat / 16) (v.toNat % 16) = v := by
  rw [channel, Nat.div_add_mod, UInt8.ofNat_toNat]

theorem hexChannel_channel : ∀ hi < 16, ∀ lo < 16,
    hexChannel (channel hi lo) = [hexDigit hi, hexDigit lo] := by
  decide +kernel

theorem channel_eq_opaque_iff : ∀ hi < 16, ∀ lo < 16,
    channel hi lo = 255 ↔ [hexDigit hi, hexDigit lo] = "ff".toList := by
  decide +kernel

/-- The values of the digits of a color. -/
def digitValues (c : Color) : List Nat :=
  let values (v : UInt8) := [v.toNat / 16, v.toNat % 16]
  values c.r ++ values c.g ++ values c.b ++ (if c.a = 255 then [] else values c.a)

theorem map_hexDigit_digitValues (c : Color) : c.digitValues.map hexDigit = c.hexDigits := by
  rw [digitValues, hexDigits]
  split <;> simp [hexChannel]

theorem ofDigits?_digitValues (c : Color) : ofDigits? c.digitValues = some c := by
  obtain ⟨r, g, b, a⟩ := c
  rw [digitValues]
  split
  · rename_i ha
    obtain rfl : a = 255 := ha
    simp [ofDigits?, channel_digits]
  · simp [ofDigits?, channel_digits]

theorem lt_of_mem_digitValues (c : Color) : ∀ v ∈ c.digitValues, v < 16 := by
  have hvalues (v : UInt8) : v.toNat / 16 < 16 ∧ v.toNat % 16 < 16 := by
    have := v.toNat_lt
    omega
  rw [digitValues]
  split <;> simp [hvalues]

/-! ### Reading digits -/

/-- What stands behind `#`, or all of the text. -/
def unhashed (t : Text) : Text := if t.head? = some '#' then t.drop 1 else t

theorem toLower_eq_hash : x.toLower = '#' ↔ x = '#' := by
  constructor
  · intro h
    have hascii : ∀ x : Char, x.toNat < 128 → x.toLower = '#' → x = '#' :=
      forall_ascii (by decide +kernel)
    exact hascii x (toNat_lt_of_toLower (by rw [h]; decide)) h
  · rintro rfl
    rfl

theorem unhashed_toLower (t : Text) : unhashed (toLower t) = toLower (unhashed t) := by
  have hhead : (toLower t).head? = some '#' ↔ t.head? = some '#' := by
    cases t with
    | nil => exact Iff.rfl
    | cons x t => simpa [toLower] using toLower_eq_hash
  unfold unhashed
  simp only [hhead]
  split
  · exact List.map_drop.symm
  · rfl

/-- A notation is a text of digits behind an optional `#`, read by its lower case. -/
theorem ofHex?_eq_some_iff : ofHex? t = some c ↔
    ∃ vs, (∀ v ∈ vs, v < 16) ∧ toLower (unhashed t) = vs.map hexDigit ∧ ofDigits? vs = some c := by
  have hbind : ofHex? t = some c ↔
      ∃ vs, (unhashed t).mapM hexValue? = some vs ∧ ofDigits? vs = some c :=
    Option.bind_eq_some_iff
  simp only [hbind, mapM_hexValue?_eq_some_iff, and_assoc]

/-- A color is read from its digits, with or without `#`, in any case. -/
theorem ofHex?_of_toLower (h : toLower t = c.hex ∨ toLower t = c.hexDigits) :
    ofHex? t = some c := by
  refine ofHex?_eq_some_iff.2
    ⟨c.digitValues, c.lt_of_mem_digitValues, ?_, c.ofDigits?_digitValues⟩
  rw [← unhashed_toLower, map_hexDigit_digitValues]
  rcases h with h | h
  · rw [h]
    rfl
  · have hfirst : hexDigit (c.r.toNat / 16) ≠ '#' := by
      have hdigit : ∀ v < 16, hexDigit v ≠ '#' := by decide
      exact hdigit _ (by have := c.r.toNat_lt; omega)
    rw [h, unhashed, if_neg]
    simpa [hexDigits, hexChannel] using hfirst

/-! ### Reading any notation -/

/-- Blanks around a text without any are trimmed. -/
theorem trim_append (hlead : lead.blank = true) (htrail : trail.blank = true)
    (ht : ∀ x ∈ t, isBlank x = false) (hne : t ≠ []) : trim (lead ++ t ++ trail) = t := by
  have hfront : (lead ++ t ++ trail).dropWhile isBlank = t ++ trail := by
    obtain ⟨x, t, rfl⟩ := List.exists_cons_of_ne_nil hne
    rw [List.append_assoc, List.dropWhile_append_of_pos (List.all_eq_true.1 hlead)]
    exact List.dropWhile_cons_of_neg (by simp [ht x List.mem_cons_self])
  have hback : t.rdropWhile isBlank = t :=
    List.rdropWhile_eq_self_iff.2 fun h => by simp [ht _ (List.getLast_mem h)]
  have htrail' : ∀ x ∈ trail.reverse, isBlank x = true := fun x hx =>
    List.all_eq_true.1 htrail x (List.mem_reverse.1 hx)
  rw [trim, hfront, dropEndWhile, List.reverse_append, List.dropWhile_append_of_pos htrail']
  exact hback

/-- No keyword consists of digits. -/
theorem mapM_hexValue?_keyword : ∀ k ∈ "transparent" :: keywords.map (·.1),
    k.toList.mapM hexValue? = none := by
  decide +kernel

/-- No keyword has the letters of a text of digits. -/
theorem not_sameLetters_of_digits (ht : t.mapM hexValue? = some vs) :
    ∀ k ∈ "transparent" :: keywords.map (·.1), sameLetters k.toList t = false := by
  intro k hk
  refine beq_false_of_ne fun heq => ?_
  obtain ⟨hlt, hvs⟩ := mapM_hexValue?_eq_some_iff.1 ht
  -- the keyword would have digits where the text has them
  have hread := mapM_hexValue?_eq_some_iff.2 ⟨hlt, heq.trans hvs⟩
  rw [mapM_hexValue?_keyword k hk] at hread
  cases hread

theorem ofName?_of_digits (ht : t.mapM hexValue? = some vs) (hne : t ≠ []) : ofName? t = none := by
  have htrim : t.trim = t := by
    have hsolid : ∀ x ∈ t, isBlank x = false := fun x hx =>
      (exists_hexValue?_of_mem ht hx).elim fun _ => not_isBlank_of_hexValue?
    have hblank : Text.blank [] = true := rfl
    simpa using trim_append hblank hblank hsolid hne
  have hother := not_sameLetters_of_digits ht
  have htransparent : sameLetters t "transparent".toList = false := by
    have := hother "transparent" List.mem_cons_self
    rw [sameLetters, beq_eq_false_iff_ne] at this ⊢
    exact Ne.symm this
  have hnone : (keywords.find? fun k => sameLetters k.1.toList t) = none :=
    List.find?_eq_none.2 fun k hk => by
      rw [hother k.1 (List.mem_cons_of_mem _ (List.mem_map_of_mem hk))]
      exact Bool.false_ne_true
  rw [ofName?]
  simp only [htrim, htransparent, hnone, Option.map_none]
  rfl

/-- A notation consists of digits, except for `#`. -/
theorem hash_or_digit_of_mem (h : (unhashed t).mapM hexValue? = some vs) (hx : x ∈ t) :
    x = '#' ∨ ∃ v, hexValue? x = some v := by
  unfold unhashed at h
  split at h
  · rename_i hhash
    obtain ⟨u, rfl⟩ := List.head?_eq_some_iff.1 hhash
    rcases List.mem_cons.1 hx with rfl | hx
    · exact .inl rfl
    · exact .inr (exists_hexValue?_of_mem h hx)
  · exact .inr (exists_hexValue?_of_mem h hx)

/-- The digits of a color are a notation of it, whatever blanks stand around them. -/
theorem ofText?_of_ofHex? (h : ofHex? t = some c) (hlead : lead.blank = true)
    (htrail : trail.blank = true) : ofText? (lead ++ t ++ trail) = some c := by
  obtain ⟨vs, hvs, -⟩ := Option.bind_eq_some_iff.1 h
  change (unhashed t).mapM hexValue? = some vs at hvs
  have hne : t ≠ [] := by
    rintro rfl
    cases h
  have hsolid : ∀ x ∈ t, isBlank x = false := fun x hx => by
    rcases hash_or_digit_of_mem hvs hx with rfl | ⟨v, hv⟩
    · decide
    · exact not_isBlank_of_hexValue? hv
  have hcut : t.cut? '(' = none := by
    have hparen : '(' ∉ t := fun hmem => by
      rcases hash_or_digit_of_mem hvs hmem with h | ⟨v, hv⟩
      · exact absurd h (by decide)
      · cases hv
    rw [cut?, if_neg (by simpa using hparen)]
  rw [ofText?]
  simp only [trim_append hlead htrail hsolid hne, hcut]
  rw [if_neg (by simpa using hne)]
  split
  · exact h
  · rename_i hhash
    rw [unhashed, if_neg hhash] at hvs
    rw [ofName?_of_digits hvs hne, h]
    rfl

/-! ### Spelling out what was read -/

/-- The digits of a short notation twice each, those of a long one once. -/
def spelledOut (digits : Text) : Text :=
  if digits.length ≤ 4 then digits.flatMap fun x => [x, x] else digits

/-- The digits without those of an alpha channel that says opaque. -/
def withoutOpaque (digits : Text) : Text :=
  if digits.drop 6 = "ff".toList then digits.take 6 else digits

/-- Three, four, six or eight digits behind an optional `#`. -/
def HexNotation (t : Text) : Prop :=
  (∀ x ∈ unhashed t, (hexValue? x).isSome) ∧ (unhashed t).length ∈ [3, 4, 6, 8]

theorem hexDigits_six {r r' g g' b b' : Nat} (h : ∀ v ∈ [r, r', g, g', b, b'], v < 16) :
    hexDigits { r := channel r r', g := channel g g', b := channel b b' } =
      [r, r', g, g', b, b'].map hexDigit := by
  simp only [List.mem_cons, List.not_mem_nil, or_false, forall_eq_or_imp, forall_eq] at h
  simp [hexDigits, hexChannel_channel, h]

theorem hexDigits_eight {r r' g g' b b' a a' : Nat}
    (h : ∀ v ∈ [r, r', g, g', b, b', a, a'], v < 16) :
    hexDigits { r := channel r r', g := channel g g', b := channel b b', a := channel a a' } =
      withoutOpaque ([r, r', g, g', b, b', a, a'].map hexDigit) := by
  simp only [List.mem_cons, List.not_mem_nil, or_false, forall_eq_or_imp, forall_eq] at h
  obtain ⟨hr, hr', hg, hg', hb, hb', ha, ha'⟩ := h
  have halpha : ([r, r', g, g', b, b', a, a'].map hexDigit).drop 6 = "ff".toList ↔
      channel a a' = 255 := (channel_eq_opaque_iff a ha a' ha').symm
  rw [hexDigits, withoutOpaque]
  simp only [halpha, hexChannel_channel, hr, hr', hg, hg', hb, hb', ha, ha']
  split <;> rfl

/-- What was read is written with its digits spelled out, in lower case. -/
theorem hex_of_ofHex? (h : ofHex? t = some c) :
    c.hex = '#' :: withoutOpaque (spelledOut (toLower (unhashed t))) := by
  obtain ⟨vs, hlt, hvs, hc⟩ := ofHex?_eq_some_iff.1 h
  rw [hex, hvs]
  congr 1
  unfold ofDigits? at hc
  split at hc
  case h_1 r g b =>
    obtain rfl := Option.some.inj hc
    exact hexDigits_six (by simpa using hlt)
  case h_2 r g b a =>
    obtain rfl := Option.some.inj hc
    exact hexDigits_eight (by simpa using hlt)
  case h_3 =>
    obtain rfl := Option.some.inj hc
    exact hexDigits_six hlt
  case h_4 =>
    obtain rfl := Option.some.inj hc
    exact hexDigits_eight hlt
  case h_5 => cases hc

theorem toLower_hex (c : Color) : toLower c.hex = c.hex := by
  have hlower : ∀ v < 16, (hexDigit v).toLower = hexDigit v := by decide
  have hdigits : toLower c.hexDigits = c.hexDigits := by
    rw [← map_hexDigit_digitValues, toLower, List.map_map]
    exact List.map_congr_left fun v hv => hlower v (c.lt_of_mem_digitValues v hv)
  exact congrArg ('#' :: ·) hdigits

theorem hex_injective {c d : Color} (h : c.hex = d.hex) : c = d := by
  have hc : ofHex? c.hex = some c := ofHex?_of_toLower (.inl c.toLower_hex)
  have hd : ofHex? d.hex = some d := ofHex?_of_toLower (.inl d.toLower_hex)
  rw [h, hd] at hc
  exact (Option.some.inj hc).symm

theorem isSome_ofDigits?_iff : (ofDigits? vs).isSome = true ↔ vs.length ∈ [3, 4, 6, 8] := by
  rcases vs with _ | ⟨r, _ | ⟨r', _ | ⟨g, _ | ⟨g', _ | ⟨b, _ | ⟨b', _ | ⟨a, _ | ⟨a', _ |
    ⟨v, vs⟩⟩⟩⟩⟩⟩⟩⟩⟩
  all_goals simp [ofDigits?]

theorem exists_mapM_hexValue? (h : ∀ x ∈ t, (hexValue? x).isSome = true) :
    ∃ vs, t.mapM hexValue? = some vs := by
  induction t with
  | nil => exact ⟨[], rfl⟩
  | cons x t ih =>
    obtain ⟨v, hv⟩ := Option.isSome_iff_exists.1 (h x List.mem_cons_self)
    obtain ⟨vs, hvs⟩ := ih fun y hy => h y (List.mem_cons_of_mem x hy)
    exact ⟨v :: vs, by rw [List.mapM_cons, hv, hvs]; rfl⟩

/-- The texts that are read. -/
theorem isSome_ofHex?_iff : (ofHex? t).isSome = true ↔ HexNotation t := by
  have hlength {vs : List Nat} (h : (unhashed t).mapM hexValue? = some vs) :
      (unhashed t).length = vs.length := by
    simpa [toLower] using congrArg List.length (mapM_hexValue?_eq_some_iff.1 h).2
  constructor
  · intro h
    obtain ⟨c, hc⟩ := Option.isSome_iff_exists.1 h
    obtain ⟨vs, hvs, hc⟩ := Option.bind_eq_some_iff.1 hc
    refine ⟨fun x hx => Option.isSome_iff_exists.2 (exists_hexValue?_of_mem hvs hx), ?_⟩
    rw [hlength hvs]
    exact isSome_ofDigits?_iff.1 (Option.isSome_iff_exists.2 ⟨c, hc⟩)
  · rintro ⟨hdigits, hlen⟩
    obtain ⟨vs, hvs⟩ := exists_mapM_hexValue? hdigits
    rw [hlength hvs] at hlen
    have hread : ofHex? t = ofDigits? vs := by
      change ((unhashed t).mapM hexValue?).bind ofDigits? = _
      rw [hvs]
      rfl
    rw [hread]
    exact isSome_ofDigits?_iff.2 hlen

/-- Any notation of a color in its hexadecimal digits is read as this color, and what is read from
hexadecimal digits is the color that they spell out. -/
theorem hex_roundTrip :
    (∀ (c : Color) (t lead trail : Text), toLower t = c.hex ∨ toLower t = c.hexDigits →
      lead.blank = true → trail.blank = true → ofText? (lead ++ t ++ trail) = some c) ∧
    ∀ (t : Text) (c : Color), ofHex? t = some c ↔
      HexNotation t ∧ c.hex = '#' :: withoutOpaque (spelledOut (toLower (unhashed t))) := by
  refine ⟨fun c t lead trail ht => ofText?_of_ofHex? (ofHex?_of_toLower ht), fun t c => ?_⟩
  constructor
  · intro h
    exact ⟨isSome_ofHex?_iff.1 (Option.isSome_iff_exists.2 ⟨c, h⟩), hex_of_ofHex? h⟩
  · rintro ⟨ht, hc⟩
    obtain ⟨d, hd⟩ := Option.isSome_iff_exists.1 (isSome_ofHex?_iff.2 ht)
    rw [hd, hex_injective (hc.trans (hex_of_ofHex? hd).symm)]

theorem hex_roundTrip_mixedCase :
    ofText? "\t 1eC7fF80\n".toList = some { r := 0x1e, g := 0xc7, b := 0xff, a := 0x80 } ∧
      ofHex? "#FeDf".toList = some { r := 0xff, g := 0xee, b := 0xdd } := by
  have hread := hex_roundTrip.1 { r := 0x1e, g := 0xc7, b := 0xff, a := 0x80 } "1eC7fF80".toList
    "\t ".toList "\n".toList (.inr (by decide)) (by decide) (by decide)
  have hdigits : HexNotation "#FeDf".toList := ⟨List.all_eq_true.1 (by decide), by decide⟩
  exact ⟨hread, (hex_roundTrip.2 "#FeDf".toList _).2 ⟨hdigits, by decide⟩⟩

end Color
end MarkupText

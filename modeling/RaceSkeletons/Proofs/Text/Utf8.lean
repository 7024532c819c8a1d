import RaceSkeletons.Text.Utf8

/-!
# Decoding undoes encoding

The decoder reads the bytes of one character and is back between two
characters, whatever follows (`scan_encodeChar`). So a text survives being
written to a file and read again.

The bytes of a character are a leading byte, which tells the length, and
continuation bytes that carry six bits each. The facts about single bytes
range over a few dozen values and are checked one by one.
-/

namespace RaceSkeletons.Utf8

/-! ## Single bytes -/

theorem lead_one : ∀ n < 0x80,
    step .start (UInt8.ofNat n) = ([some (Char.ofNat n)], .start) := by
  decide

theorem lead_two : ∀ n < 0x20, 2 ≤ n →
    step .start (UInt8.ofNat (n + 0xc0)) = ([], .within 0 n 0x80 0xbf) := by
  decide

theorem lead_three : ∀ n < 0x10,
    step .start (UInt8.ofNat (n + 0xe0)) =
      ([], .within 1 n (if n = 0 then 0xa0 else 0x80) (if n = 0xd then 0x9f else 0xbf)) := by
  decide

theorem lead_four : ∀ n < 5,
    step .start (UInt8.ofNat (n + 0xf0)) =
      ([], .within 2 n (if n = 0 then 0x90 else 0x80) (if n = 4 then 0x8f else 0xbf)) := by
  decide

/-- A continuation byte within the bounds is accepted, and read as its six
bits. -/
theorem continuation_mem {n : Nat} {low high : UInt8} (hn : n < 0x40)
    (hlow : low.toNat ≤ n + 0x80) (hhigh : n + 0x80 ≤ high.toNat) :
    (low ≤ UInt8.ofNat (n + 0x80) ∧ UInt8.ofNat (n + 0x80) ≤ high)
      ∧ (UInt8.ofNat (n + 0x80)).toNat - 0x80 = n := by
  have hb : (UInt8.ofNat (n + 0x80)).toNat = n + 0x80 := by
    rw [UInt8.toNat_ofNat']
    omega
  rw [UInt8.le_iff_toNat_le, UInt8.le_iff_toNat_le, hb]
  exact ⟨⟨hlow, hhigh⟩, Nat.add_sub_cancel ..⟩

theorem step_last {value n : Nat} {low high : UInt8} (hn : n < 0x40)
    (hlow : low.toNat ≤ n + 0x80) (hhigh : n + 0x80 ≤ high.toNat) :
    step (.within 0 value low high) (UInt8.ofNat (n + 0x80)) =
      ([some (Char.ofNat (value * 0x40 + n))], .start) := by
  obtain ⟨hmem, hbits⟩ := continuation_mem hn hlow hhigh
  simp only [step, if_pos hmem, hbits]

/-- Any other continuation byte adds its bits to the value. -/
theorem step_more {need value n : Nat} {low high : UInt8} (hn : n < 0x40)
    (hlow : low.toNat ≤ n + 0x80) (hhigh : n + 0x80 ≤ high.toNat) :
    step (.within (need + 1) value low high) (UInt8.ofNat (n + 0x80)) =
      ([], .within need (value * 0x40 + n) 0x80 0xbf) := by
  obtain ⟨hmem, hbits⟩ := continuation_mem hn hlow hhigh
  simp only [step, if_pos hmem, hbits]

/-! ## Characters -/

theorem scan_cons_silent {s t : State} {b : UInt8} (h : step s b = ([], t)) (bs : Bytes) :
    scan s (b :: bs) = scan t bs := by
  cases s <;> rw [scan, h] <;> rfl

theorem scan_cons_char {s t : State} {b : UInt8} {c : Char}
    (h : step s b = ([some c], t)) (bs : Bytes) :
    scan s (b :: bs) = some c :: scan t bs := by
  cases s <;> rw [scan, h] <;> rfl

theorem scan_two {a b : Nat} (ha : a < 0x20) (ha' : 2 ≤ a) (hb : b < 0x40) (bs : Bytes) :
    scan .start (UInt8.ofNat (a + 0xc0) :: UInt8.ofNat (b + 0x80) :: bs) =
      some (Char.ofNat (a * 0x40 + b)) :: scan .start bs := by
  rw [scan_cons_silent (lead_two a ha ha'),
    scan_cons_char (step_last hb (by simp) (by simp; omega))]

/-- The second byte has narrower bounds behind `e0`, where the value must
not fit two bytes, and behind `ed`, where surrogates would be. -/
theorem scan_three {a b c : Nat} (ha : a < 0x10) (hb : b < 0x40) (hc : c < 0x40)
    (hlow : a = 0 → 0x20 ≤ b) (hhigh : a = 0xd → b < 0x20) (bs : Bytes) :
    scan .start (UInt8.ofNat (a + 0xe0) :: UInt8.ofNat (b + 0x80) ::
        UInt8.ofNat (c + 0x80) :: bs) =
      some (Char.ofNat ((a * 0x40 + b) * 0x40 + c)) :: scan .start bs := by
  rw [scan_cons_silent (lead_three a ha), scan_cons_silent (step_more hb ?low ?high),
    scan_cons_char (step_last hc (by simp) (by simp; omega))]
  case low =>
    split <;> simp
    omega
  case high => split <;> simp <;> omega

/-- The second byte has narrower bounds behind `f0`, where the value must
not fit three bytes, and behind `f4`, where the code points end. -/
theorem scan_four {a b c d : Nat} (ha : a < 5) (hb : b < 0x40) (hc : c < 0x40) (hd : d < 0x40)
    (hlow : a = 0 → 0x10 ≤ b) (hhigh : a = 4 → b < 0x10) (bs : Bytes) :
    scan .start (UInt8.ofNat (a + 0xf0) :: UInt8.ofNat (b + 0x80) ::
        UInt8.ofNat (c + 0x80) :: UInt8.ofNat (d + 0x80) :: bs) =
      some (Char.ofNat (((a * 0x40 + b) * 0x40 + c) * 0x40 + d)) :: scan .start bs := by
  rw [scan_cons_silent (lead_four a ha), scan_cons_silent (step_more hb ?low ?high),
    scan_cons_silent (step_more hc (by simp) (by simp; omega)),
    scan_cons_char (step_last hd (by simp) (by simp; omega))]
  case low =>
    split <;> simp
    omega
  case high => split <;> simp <;> omega

/-- The decoder reads back the bytes of a character. The cases are the
lengths of its encoding; in each, the value is put together again from the
bits that the bytes carry. -/
theorem scan_encodeChar (c : Char) (bs : Bytes) :
    scan .start (String.utf8EncodeChar c ++ bs) = some c :: scan .start bs := by
  have hc : Char.ofNat c.val.toNat = c := Char.ofNat_toNat c
  have hvalid : c.val.toNat < 0xd800 ∨ 0xdfff < c.val.toNat ∧ c.val.toNat < 0x110000 := c.valid
  generalize hv : c.val.toNat = v at hc hvalid
  unfold String.utf8EncodeChar
  simp only [hv]
  split
  · next h1 =>
    rw [← hc]
    exact scan_cons_char (lead_one v (by omega)) bs
  split
  · next h1 h2 =>
    have hsum : v / 64 % 0x20 * 0x40 + v % 0x40 = v := by omega
    refine (scan_two (by omega) (by omega) (by omega) bs).trans ?_
    rw [hsum, hc]
  split
  · next h1 h2 h3 =>
    have hsum : (v / 4096 % 0x10 * 0x40 + v / 64 % 0x40) * 0x40 + v % 0x40 = v := by omega
    refine (scan_three (by omega) (by omega) (by omega) (by omega) (by omega) bs).trans ?_
    rw [hsum, hc]
  · next h1 h2 h3 =>
    have hsum : ((v / 262144 % 0x08 * 0x40 + v / 4096 % 0x40) * 0x40 + v / 64 % 0x40) * 0x40
        + v % 0x40 = v := by omega
    refine (scan_four (by omega) (by omega) (by omega) (by omega) (by omega) (by omega) bs).trans ?_
    rw [hsum, hc]

/-! ## Texts -/

theorem scan_encode_toList (cs : List Char) :
    scan .start (cs.flatMap String.utf8EncodeChar) = cs.map some := by
  induction cs with
  | nil => rfl
  | cons c cs ih =>
      rw [List.flatMap_cons, scan_encodeChar, ih, List.map_cons]

theorem scan_encode (s : String) : scan .start (encode s) = s.toList.map some :=
  scan_encode_toList s.toList

/-- Where no sequence is broken, the characters are those that were marked. -/
theorem mapM_id_eq_some_iff {marks : List (Option Char)} {cs : List Char} :
    marks.mapM id = some cs ↔ marks = cs.map some := by
  induction marks generalizing cs with
  | nil => cases cs <;> simp
  | cons mark rest ih =>
      cases mark with
      | none => cases cs <;> simp [List.mapM_cons]
      | some c =>
          have hrest : (some c :: rest).mapM id = (rest.mapM id).map (c :: ·) := by
            rw [List.mapM_cons]
            cases rest.mapM id <;> rfl
          cases cs with
          | nil => simp [hrest]
          | cons d ds =>
              simp only [hrest, Option.map_eq_some_iff, ih, List.map_cons, List.cons.injEq,
                Option.some.injEq, exists_eq_right_right]
              exact and_comm

theorem decode?_eq_some_iff {bytes : Bytes} {text : String} :
    decode? bytes = some text ↔ scan .start bytes = text.toList.map some := by
  rw [decode?, Option.map_eq_some_iff, ← mapM_id_eq_some_iff]
  constructor
  · rintro ⟨cs, hcs, rfl⟩
    rw [String.toList_ofList, hcs]
  · exact fun h => ⟨text.toList, h, String.ofList_toList⟩

/-- Strict reading gives back the text that was written. -/
theorem decode?_encode (s : String) : decode? (encode s) = some s :=
  decode?_eq_some_iff.mpr (scan_encode s)

/-- What strict reading accepts, lossy reading reads alike. -/
theorem decodeLossy_of_decode? {bytes : Bytes} {text : String} (h : decode? bytes = some text) :
    decodeLossy bytes = text := by
  rw [decodeLossy, decode?_eq_some_iff.mp h, List.map_map]
  exact (congrArg String.ofList (List.map_id _)).trans String.ofList_toList

end RaceSkeletons.Utf8

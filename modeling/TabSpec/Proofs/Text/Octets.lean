import TabSpec.Text.Octets

/-! Text as octets, read back: the octets that a text is written as are text, and the same one. -/
namespace TabSpec.Text

/-- The character that stands for an octet keeps its number. -/
theorem toNat_ofNat_octet {n : Nat} (octet : n < 256) :
    (Char.ofNat (UInt8.ofNat n).toNat).toNat = n := by
  have same : (UInt8.ofNat n).toNat = n := UInt8.toNat_ofNat_of_lt' octet
  have valid : n.isValidChar := .inl (by omega)
  rw [same, Char.ofNat, dif_pos valid]
  rfl

section

variable {n : Nat} {pending : PartialChar} {rest : List Char}

/-- An octet that is a character. -/
theorem readOctets_char (ascii : n < 0x80) :
    readOctets none (Char.ofNat (UInt8.ofNat n).toNat :: rest) =
      some (Char.ofNat n) :: readOctets none rest := by
  rw [readOctets, toNat_ofNat_octet (by omega), FirstOctet.of, if_pos ascii]

/-- An octet that opens a character. -/
theorem readOctets_opens (octet : n < 256) (opens : FirstOctet.of n = .opens pending) :
    readOctets none (Char.ofNat (UInt8.ofNat n).toNat :: rest) =
      readOctets (some pending) rest := by
  rw [readOctets, toNat_ofNat_octet octet, opens]

variable {low high value bits : Nat}

/-- An octet inside a character. -/
theorem readOctets_inside {missing : Nat} (least : low ≤ bits + 0x80)
    (greatest : bits + 0x80 ≤ high) (octet : bits < 0x40) :
    readOctets (some ⟨missing + 2, low, high, value⟩)
        (Char.ofNat (UInt8.ofNat (bits + 0x80)).toNat :: rest) =
      readOctets (some ⟨missing + 1, 0x80, 0xbf, value * 64 + bits⟩) rest := by
  rw [readOctets, toNat_ofNat_octet (by omega)]
  simp [least, greatest]

/-- The last octet of a character. -/
theorem readOctets_last (least : low ≤ bits + 0x80) (greatest : bits + 0x80 ≤ high)
    (octet : bits < 0x40) :
    readOctets (some ⟨1, low, high, value⟩)
        (Char.ofNat (UInt8.ofNat (bits + 0x80)).toNat :: rest) =
      some (Char.ofNat (value * 64 + bits)) :: readOctets none rest := by
  rw [readOctets, toNat_ofNat_octet (by omega)]
  simp [least, greatest]

end

section

variable {n : Nat}

theorem FirstOctet.of_two (least : 0x80 ≤ n) (greatest : n ≤ 0x7ff) :
    of (n / 64 % 32 + 0xc0) = .opens ⟨1, 0x80, 0xbf, n / 64⟩ := by
  rw [of, if_neg (by omega), if_pos (by omega),
    show n / 64 % 32 + 0xc0 - 0xc0 = n / 64 by omega]

/-- The first of three octets bounds the second, so that no shorter form and no surrogate fits. -/
theorem FirstOctet.of_three (least : 0x800 ≤ n) (greatest : n ≤ 0xffff)
    (scalar : n < 0xd800 ∨ 0xdfff < n) : ∃ low high,
    of (n / 4096 % 16 + 0xe0) = .opens ⟨2, low, high, n / 4096⟩ ∧
      low ≤ n / 64 % 64 + 0x80 ∧ n / 64 % 64 + 0x80 ≤ high := by
  generalize lead : n / 4096 % 16 + 0xe0 = first
  unfold of
  rw [if_neg (by omega), if_neg (by omega)]
  by_cases shortest : first = 0xe0
  · refine ⟨0xa0, 0xbf, ?_, by omega, by omega⟩
    rw [if_pos shortest, show n / 4096 = 0 by omega]
  · rw [if_neg shortest]
    by_cases surrogates : first = 0xed
    · refine ⟨0x80, 0x9f, ?_, by omega, by omega⟩
      rw [if_pos surrogates, show n / 4096 = 13 by omega]
    · refine ⟨0x80, 0xbf, ?_, by omega, by omega⟩
      rw [if_neg surrogates, if_pos (by omega), show first - 0xe0 = n / 4096 by omega]

/-- The first of four octets bounds the second one, so that the character lies in range. -/
theorem FirstOctet.of_four (least : 0x10000 ≤ n) (greatest : n < 0x110000) : ∃ low high,
    of (n / 262144 % 8 + 0xf0) = .opens ⟨3, low, high, n / 262144⟩ ∧
      low ≤ n / 4096 % 64 + 0x80 ∧ n / 4096 % 64 + 0x80 ≤ high := by
  generalize lead : n / 262144 % 8 + 0xf0 = first
  unfold of
  rw [if_neg (by omega), if_neg (by omega), if_neg (by omega), if_neg (by omega), if_neg (by omega)]
  by_cases shortest : first = 0xf0
  · refine ⟨0x90, 0xbf, ?_, by omega, by omega⟩
    rw [if_pos shortest, show n / 262144 = 0 by omega]
  · rw [if_neg shortest]
    by_cases largest : first = 0xf4
    · refine ⟨0x80, 0x8f, ?_, by omega, by omega⟩
      rw [if_neg (by omega), if_pos largest, show n / 262144 = 4 by omega]
    · refine ⟨0x80, 0xbf, ?_, by omega, by omega⟩
      rw [if_pos (by omega), show first - 0xf0 = n / 262144 by omega]

end

/-- The octets of a character are read as that character. -/
theorem readOctets_encode (c : Char) (rest : List Char) :
    readOctets none ((String.utf8EncodeChar c).map (fun octet => Char.ofNat octet.toNat) ++ rest) =
      some c :: readOctets none rest := by
  have valid : c.val.toNat < 0xd800 ∨ 0xdfff < c.val.toNat ∧ c.val.toNat < 0x110000 := c.valid
  have whole : Char.ofNat c.val.toNat = c := Char.ofNat_toNat c
  rw [String.utf8EncodeChar]
  generalize c.val.toNat = n at valid whole
  split
  · rw [List.map_singleton, List.singleton_append, readOctets_char (by omega), whole]
  · split
    · have value : n / 64 * 64 + n % 64 = n := by omega
      simp only [List.map_cons, List.map_nil, List.cons_append, List.nil_append]
      rw [readOctets_opens (by omega) (FirstOctet.of_two (by omega) (by omega)),
        readOctets_last (by omega) (by omega) (by omega), value, whole]
    · split
      · have value : (n / 4096 * 64 + n / 64 % 64) * 64 + n % 64 = n := by omega
        obtain ⟨low, high, opens, least, greatest⟩ :=
          FirstOctet.of_three (n := n) (by omega) (by omega) (by omega)
        simp only [List.map_cons, List.map_nil, List.cons_append, List.nil_append]
        rw [readOctets_opens (by omega) opens, readOctets_inside least greatest (by omega),
          readOctets_last (by omega) (by omega) (by omega), value, whole]
      · have value : ((n / 262144 * 64 + n / 4096 % 64) * 64 + n / 64 % 64) * 64 + n % 64 = n := by
          omega
        obtain ⟨low, high, opens, least, greatest⟩ :=
          FirstOctet.of_four (n := n) (by omega) (by omega)
        simp only [List.map_cons, List.map_nil, List.cons_append, List.nil_append]
        rw [readOctets_opens (by omega) opens, readOctets_inside least greatest (by omega),
          readOctets_inside (by omega) (by omega) (by omega),
          readOctets_last (by omega) (by omega) (by omega), value, whole]

theorem toOctets_append (front back : String) :
    toOctets (front ++ back) = toOctets front ++ toOctets back := by
  simp [toOctets]

theorem readOctets_toOctets (text : String) :
    readOctets none (toOctets text) = text.toList.map some := by
  unfold toOctets
  induction text.toList with
  | nil => rfl
  | cons c rest ih => rw [List.flatMap_cons, readOctets_encode, ih, List.map_cons]

/-- What is written as octets is read back from them. -/
@[simp] theorem ofOctets?_toOctets (text : String) : ofOctets? (toOctets text) = some text := by
  have whole : (text.toList.map some).mapM id = some text.toList := by
    induction text.toList with
    | nil => rfl
    | cons c rest ih => simp [List.mapM_cons, ih]
  rw [ofOctets?, readOctets_toOctets, whole, Option.map_some, String.ofList_toList]

end TabSpec.Text

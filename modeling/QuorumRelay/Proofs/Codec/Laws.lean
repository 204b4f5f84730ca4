import QuorumRelay.Codec
import QuorumRelay.Proofs.Step

/-!
# Reading undoes writing

A codec is faithful when its two directions belong together: reading gives back
what was written and stops where the written form ends, and nothing else reads
as that value.  The only thing a written form can lose is the length of a list,
which has 32 bits; so a codec is faithful *for the values that fit*, and what is
read always fits.

## How the law is carried

`Faithful c Fits` is proved once for each primitive and each combinator of
`Codec`, and the codec of a record is then faithful by the shape of its
definition.  The predicate `Fits` grows along: a pair fits when its parts do, a
list when its length has 32 bits and its elements fit.
-/

namespace QuorumRelay

/-! ## Numbers -/

/-- A number that its bytes can hold is read back from them. -/
theorem ofLittleEndian_littleEndian {width value : Nat} (h : value < 256 ^ width) :
    ofLittleEndian (littleEndian width value) = value := by
  induction width generalizing value with
  | zero =>
    rw [Nat.pow_zero] at h
    simp [littleEndian, ofLittleEndian]
    omega
  | succ w ih =>
    have hdiv : value / 256 < 256 ^ w := by
      rw [Nat.pow_succ] at h
      exact Nat.div_lt_of_lt_mul (by rw [Nat.mul_comm]; exact h)
    simp only [littleEndian, ofLittleEndian, ih hdiv, UInt8.toNat_ofNat']
    omega

/-- Bytes are written again as they were read. -/
theorem littleEndian_ofLittleEndian (bytes : List UInt8) :
    littleEndian bytes.length (ofLittleEndian bytes) = bytes := by
  induction bytes with
  | nil => rfl
  | cons b rest ih =>
    have hb : b.toNat < 256 := b.toNat_lt
    have hq : (b.toNat + 256 * ofLittleEndian rest) / 256 = ofLittleEndian rest := by omega
    have hr : UInt8.ofNat (b.toNat + 256 * ofLittleEndian rest) = b := by
      apply UInt8.toNat_inj.mp
      rw [UInt8.toNat_ofNat']
      omega
    simp only [List.length_cons, littleEndian, ofLittleEndian, hq, hr, ih]

theorem ofLittleEndian_lt (bytes : List UInt8) :
    ofLittleEndian bytes < 256 ^ bytes.length := by
  induction bytes with
  | nil => simp [ofLittleEndian]
  | cons b rest ih =>
    have hb : b.toNat < 256 := b.toNat_lt
    simp only [ofLittleEndian, List.length_cons, Nat.pow_succ]
    omega

namespace Codec

variable {α β : Type}

/-- **The two directions of a codec belong together**, for the values that fit. -/
structure Faithful (c : Codec α) (Fits : α → Prop) : Prop where
  read_write : ∀ {a : α}, Fits a → ∀ rest : List UInt8, c.read (c.write a ++ rest) = .ok (a, rest)
  write_of_read : ∀ {input rest : List UInt8} {a : α}, c.read input = .ok (a, rest) →
    c.write a ++ rest = input
  fits_of_read : ∀ {input rest : List UInt8} {a : α}, c.read input = .ok (a, rest) → Fits a

namespace Faithful

/-- The values that fit may be named in another way. -/
theorem of_iff {c : Codec α} {F G : α → Prop} (h : c.Faithful F) (hFG : ∀ a, F a ↔ G a) :
    c.Faithful G where
  read_write hG := h.read_write ((hFG _).2 hG)
  write_of_read := h.write_of_read
  fits_of_read hr := (hFG _).1 (h.fits_of_read hr)

/-! ## Combinators -/

/-- Reading under another view is reading, then viewing. -/
theorem read_map_eq_ok {c : Codec α} {view : α → β} {back : β → α} {input rest : List UInt8}
    {b : β} : (c.map view back).read input = .ok (b, rest) ↔
      ∃ a, c.read input = .ok (a, rest) ∧ view a = b := by
  show (c.read input >>= fun p => Except.ok (view p.1, p.2)) = _ ↔ _
  rw [except_bind_eq_ok]
  constructor
  · rintro ⟨⟨a, rest'⟩, h, h'⟩
    cases h'
    exact ⟨a, h, rfl⟩
  · rintro ⟨a, h, rfl⟩
    exact ⟨(a, rest), h, rfl⟩

/-- Another view of the same bytes is faithful when the two views are inverse to each
other. -/
theorem map {c : Codec α} {F : α → Prop} {G : β → Prop} {view : α → β} {back : β → α}
    (h : c.Faithful F) (hview : ∀ b, view (back b) = b) (hback : ∀ a, back (view a) = a)
    (hFG : ∀ b, F (back b) ↔ G b) : (c.map view back).Faithful G where
  read_write {b} hb rest :=
    read_map_eq_ok.2 ⟨back b, h.read_write ((hFG b).2 hb) rest, hview b⟩
  write_of_read {input rest b} hr := by
    obtain ⟨a, ha, rfl⟩ := read_map_eq_ok.1 hr
    show c.write (back (view a)) ++ rest = input
    rw [hback]
    exact h.write_of_read ha
  fits_of_read {input rest b} hr := by
    obtain ⟨a, ha, rfl⟩ := read_map_eq_ok.1 hr
    rw [← hFG, hback]
    exact h.fits_of_read ha

/-- Reading a pair is reading its parts, one after the other. -/
theorem read_pair_eq_ok {c : Codec α} {d : Codec β} {input rest : List UInt8} {p : α × β} :
    (c.pair d).read input = .ok (p, rest) ↔
      ∃ between, c.read input = .ok (p.1, between) ∧ d.read between = .ok (p.2, rest) := by
  show (c.read input >>= fun q => d.read q.2 >>= fun q' => Except.ok ((q.1, q'.1), q'.2)) = _ ↔ _
  simp only [except_bind_eq_ok]
  constructor
  · rintro ⟨⟨a, between⟩, h, ⟨b, rest'⟩, h', h''⟩
    cases h''
    exact ⟨between, h, h'⟩
  · rintro ⟨between, h, h'⟩
    exact ⟨(p.1, between), h, (p.2, rest), h', rfl⟩

theorem pair {c : Codec α} {d : Codec β} {F : α → Prop} {G : β → Prop} (hc : c.Faithful F)
    (hd : d.Faithful G) : (c.pair d).Faithful fun p => F p.1 ∧ G p.2 where
  read_write {p} hp rest := by
    refine read_pair_eq_ok.2 ⟨d.write p.2 ++ rest, ?_, hd.read_write hp.2 rest⟩
    show c.read ((c.write p.1 ++ d.write p.2) ++ rest) = _
    rw [List.append_assoc]
    exact hc.read_write hp.1 _
  write_of_read {input rest p} hr := by
    obtain ⟨between, h, h'⟩ := read_pair_eq_ok.1 hr
    show (c.write p.1 ++ d.write p.2) ++ rest = input
    rw [List.append_assoc, hd.write_of_read h', hc.write_of_read h]
  fits_of_read {input rest p} hr := by
    obtain ⟨between, h, h'⟩ := read_pair_eq_ok.1 hr
    exact ⟨hc.fits_of_read h, hd.fits_of_read h'⟩

/-- An optional value starts with its tag. -/
theorem read_option_eq_ok {c : Codec α} {input rest : List UInt8} {o : Option α} :
    c.option.read input = .ok (o, rest) ↔
      (o = none ∧ input = 0 :: rest) ∨
        ∃ a tail, o = some a ∧ input = 1 :: tail ∧ c.read tail = .ok (a, rest) := by
  cases input with
  | nil => simp [Codec.option]
  | cons b tail =>
    by_cases h0 : b = 0
    · subst h0
      show Except.ok (none, tail) = _ ↔ _
      simp [eq_comm]
    · by_cases h1 : b = 1
      · subst h1
        show (c.read tail >>= fun p => Except.ok (some p.1, p.2)) = _ ↔ _
        rw [except_bind_eq_ok]
        constructor
        · rintro ⟨⟨a, rest'⟩, h, h'⟩
          cases h'
          exact Or.inr ⟨a, tail, rfl, rfl, h⟩
        · rintro (⟨-, h⟩ | ⟨a, tail', rfl, h, h'⟩)
          · exact absurd (List.cons.inj h).1 (by decide)
          · obtain ⟨-, rfl⟩ := List.cons.inj h
            exact ⟨(a, rest), h', rfl⟩
      · simp [Codec.option, h0, h1]

theorem option {c : Codec α} {F : α → Prop} (h : c.Faithful F) :
    c.option.Faithful fun o => ∀ a ∈ o, F a where
  read_write {o} ho rest := by
    cases o with
    | none => exact read_option_eq_ok.2 (Or.inl ⟨rfl, rfl⟩)
    | some a => exact read_option_eq_ok.2 (Or.inr ⟨a, _, rfl, rfl, h.read_write (ho a rfl) rest⟩)
  write_of_read {input rest o} hr := by
    rcases read_option_eq_ok.1 hr with ⟨rfl, rfl⟩ | ⟨a, tail, rfl, rfl, ha⟩
    · rfl
    · show 1 :: c.write a ++ rest = 1 :: tail
      rw [List.cons_append, h.write_of_read ha]
  fits_of_read {input rest o} hr := by
    rcases read_option_eq_ok.1 hr with ⟨rfl, rfl⟩ | ⟨a, tail, rfl, rfl, ha⟩
    · exact fun a ha => absurd ha (by simp)
    · intro a' ha'
      rw [← Option.some.inj ha']
      exact h.fits_of_read ha

/-! ## Primitives -/

theorem bytes (n : Nat) : (Codec.bytes n).Faithful fun _ => True where
  read_write {a} _ rest := by
    simp [Codec.bytes]
  write_of_read {input rest a} hr := by
    cases hs : Bytes.split? (n := n) input with
    | none => simp [Codec.bytes, hs] at hr
    | some found =>
      simp only [Codec.bytes, hs, Except.ok.injEq] at hr
      rw [hr] at hs
      exact (Bytes.eq_append_of_split? hs).symm
  fits_of_read _ := trivial

theorem u8 : Codec.u8.Faithful fun _ => True where
  read_write _ _ := rfl
  write_of_read {input rest a} hr := by
    cases input with
    | nil => simp [Codec.u8] at hr
    | cons b input =>
      simp only [Codec.u8, Except.ok.injEq, Prod.mk.injEq] at hr
      obtain ⟨rfl, rfl⟩ := hr
      rfl
  fits_of_read _ := trivial

/-- The bytes of a number read as a number are those bytes again. -/
theorem littleEndian_toList {n : Nat} (b : Bytes n) :
    littleEndian n (ofLittleEndian b.toList) = b.toList := by
  have h := littleEndian_ofLittleEndian b.toList
  rwa [b.length_toList] at h

theorem u16 : Codec.u16.Faithful fun _ => True := by
  refine (bytes 2).map (fun x => ?_) (fun b => Bytes.ext ?_) fun _ => Iff.rfl
  · show UInt16.ofNat (ofLittleEndian (littleEndian 2 x.toNat)) = x
    rw [ofLittleEndian_littleEndian x.toNat_lt, UInt16.ofNat_toNat]
  · have hlt : ofLittleEndian b.toList < 2 ^ 16 :=
      lt_of_lt_of_eq (ofLittleEndian_lt b.toList) (congrArg (256 ^ ·) b.length_toList)
    show littleEndian 2 (UInt16.ofNat (ofLittleEndian b.toList)).toNat = b.toList
    rw [UInt16.toNat_ofNat_of_lt' hlt]
    exact littleEndian_toList b

theorem u32 : Codec.u32.Faithful fun _ => True := by
  refine (bytes 4).map (fun x => ?_) (fun b => Bytes.ext ?_) fun _ => Iff.rfl
  · show UInt32.ofNat (ofLittleEndian (littleEndian 4 x.toNat)) = x
    rw [ofLittleEndian_littleEndian x.toNat_lt, UInt32.ofNat_toNat]
  · have hlt : ofLittleEndian b.toList < 2 ^ 32 :=
      lt_of_lt_of_eq (ofLittleEndian_lt b.toList) (congrArg (256 ^ ·) b.length_toList)
    show littleEndian 4 (UInt32.ofNat (ofLittleEndian b.toList)).toNat = b.toList
    rw [UInt32.toNat_ofNat_of_lt' hlt]
    exact littleEndian_toList b

theorem u64 : Codec.u64.Faithful fun _ => True := by
  refine (bytes 8).map (fun x => ?_) (fun b => Bytes.ext ?_) fun _ => Iff.rfl
  · show UInt64.ofNat (ofLittleEndian (littleEndian 8 x.toNat)) = x
    rw [ofLittleEndian_littleEndian x.toNat_lt, UInt64.ofNat_toNat]
  · have hlt : ofLittleEndian b.toList < 2 ^ 64 :=
      lt_of_lt_of_eq (ofLittleEndian_lt b.toList) (congrArg (256 ^ ·) b.length_toList)
    show littleEndian 8 (UInt64.ofNat (ofLittleEndian b.toList)).toNat = b.toList
    rw [UInt64.toNat_ofNat_of_lt' hlt]
    exact littleEndian_toList b

theorem bool : Codec.bool.Faithful fun _ => True where
  read_write {a} _ rest := by cases a <;> rfl
  write_of_read {input rest a} hr := by
    cases input with
    | nil => simp [Codec.bool] at hr
    | cons b input =>
      by_cases h0 : b = 0
      · subst h0
        cases hr
        rfl
      · by_cases h1 : b = 1
        · subst h1
          cases hr
          rfl
        · simp [Codec.bool, h0, h1] at hr
  fits_of_read _ := trivial

/-! ## Lists -/

/-- Elements that fit are read back, however many there are. -/
theorem readMany_flatMap_write {c : Codec α} {F : α → Prop} (h : c.Faithful F) {as : List α}
    (has : ∀ a ∈ as, F a) (rest : List UInt8) :
    c.readMany as.length (as.flatMap c.write ++ rest) = .ok (as, rest) := by
  induction as with
  | nil => rfl
  | cons a as ih =>
    have ha : F a := has a List.mem_cons_self
    have has' : ∀ b ∈ as, F b := fun b hb => has b (List.mem_cons_of_mem _ hb)
    rw [List.flatMap_cons, List.append_assoc, List.length_cons, Codec.readMany,
      h.read_write ha]
    show (c.readMany as.length (as.flatMap c.write ++ rest) >>= fun p =>
      Except.ok (a :: p.1, p.2)) = _
    rw [ih has']
    rfl

/-- What `readMany` reads is as many elements as asked for, each of them one that
fits, and their written forms are what was in front. -/
theorem readMany_eq_ok {c : Codec α} {F : α → Prop} (h : c.Faithful F) {count : Nat}
    {input rest : List UInt8} {as : List α} (hr : c.readMany count input = .ok (as, rest)) :
    as.length = count ∧ (∀ a ∈ as, F a) ∧ as.flatMap c.write ++ rest = input := by
  induction count generalizing input as with
  | zero =>
    cases hr
    exact ⟨rfl, by simp, rfl⟩
  | succ count ih =>
    simp only [Codec.readMany, except_bind_eq_ok] at hr
    obtain ⟨⟨a, between⟩, ha, ⟨as', rest'⟩, has, hr⟩ := hr
    cases hr
    obtain ⟨hlen, hfit, hwrite⟩ := ih has
    refine ⟨by rw [List.length_cons, hlen], ?_, ?_⟩
    · intro b hb
      rcases List.mem_cons.mp hb with rfl | hb
      · exact h.fits_of_read ha
      · exact hfit b hb
    · rw [List.flatMap_cons, List.append_assoc, hwrite, h.write_of_read ha]

/-- Reading a list is reading its length, then as many elements. -/
theorem read_list_eq_ok {c : Codec α} {input rest : List UInt8} {as : List α} :
    (Codec.list c).read input = .ok (as, rest) ↔
      ∃ count between, Codec.u32.read input = .ok (count, between) ∧
        c.readMany count.toNat between = .ok (as, rest) := by
  show (Codec.u32.read input >>= fun p => c.readMany p.1.toNat p.2) = _ ↔ _
  rw [except_bind_eq_ok]
  exact ⟨fun ⟨⟨count, between⟩, h, h'⟩ => ⟨count, between, h, h'⟩,
    fun ⟨count, between, h, h'⟩ => ⟨(count, between), h, h'⟩⟩

theorem list {c : Codec α} {F : α → Prop} (h : c.Faithful F) :
    (Codec.list c).Faithful fun as => as.length < 2 ^ 32 ∧ ∀ a ∈ as, F a where
  read_write {as} has rest := by
    refine read_list_eq_ok.2 ⟨UInt32.ofNat as.length, as.flatMap c.write ++ rest, ?_, ?_⟩
    · show Codec.u32.read ((Codec.u32.write (UInt32.ofNat as.length) ++ as.flatMap c.write) ++ rest)
        = _
      rw [List.append_assoc]
      exact u32.read_write trivial _
    · rw [UInt32.toNat_ofNat_of_lt' has.1]
      exact h.readMany_flatMap_write has.2 rest
  write_of_read {input rest as} hr := by
    obtain ⟨count, between, hc, hm⟩ := read_list_eq_ok.1 hr
    obtain ⟨hlen, -, hwrite⟩ := h.readMany_eq_ok hm
    show (Codec.u32.write (UInt32.ofNat as.length) ++ as.flatMap c.write) ++ rest = input
    rw [hlen, UInt32.ofNat_toNat, List.append_assoc, hwrite, u32.write_of_read hc]
  fits_of_read {input rest as} hr := by
    obtain ⟨count, between, hc, hm⟩ := read_list_eq_ok.1 hr
    obtain ⟨hlen, hfit, -⟩ := h.readMany_eq_ok hm
    exact ⟨hlen ▸ count.toNat_lt, hfit⟩

/-- A byte string fits when its length has 32 bits. -/
theorem byteString : Codec.byteString.Faithful fun b => b.length < 2 ^ 32 :=
  u8.list.of_iff fun _ => ⟨fun h => h.1, fun h => ⟨h, fun _ _ => trivial⟩⟩

end Faithful

end Codec
end QuorumRelay

import Cimogus.Net.CanonicalForm
import Cimogus.Net.InetAddress

/-!
# The text form of an address

`IpAddress.toString`: dotted decimal for IPv4, and for IPv6 the eight hexadecimal blocks passed through
`convertIpv6ToCanonicalForm`.
-/

namespace Cimogus.Net

open Lib.Regex List

/-! ## `toString` -/

def ipv6Blocks : List UInt8 → List Nat
  | a :: b :: bs => (a.toNat * 256 + b.toNat) :: ipv6Blocks bs
  | _ => []

/-- `block.toHexString` without leading zeros. -/
def toHexString (block : Nat) : List Char := Nat.toDigits 16 block

def IpAddress.toIpv6String (ip : IpAddress) : List Char :=
  -- every block is followed by a colon, and the last one is deleted
  convertIpv6ToCanonicalForm ((ipv6Blocks ip.address).flatMap fun block => toHexString block ++ [':']).dropLast

def IpAddress.toString (ip : IpAddress) : List Char :=
  if 4 < ip.size then ip.toIpv6String
  else ['.'].intercalate (ip.address.map fun b => Nat.toDigits 10 b.toNat)

theorem flatMap_colon :
    ∀ (b : List Char) (bs : List (List Char)), (b :: bs).flatMap (· ++ [':']) = join (b :: bs) ++ [':']
  | b, [] => by simp [join]
  | b, c :: bs => by
    rw [flatMap_cons, flatMap_colon c bs, join_cons, join_cons]
    simp [joinTail]

variable (ip : IpAddress)

theorem toIpv6String_eq :
    ip.toIpv6String = convertIpv6ToCanonicalForm (join ((ipv6Blocks ip.address).map toHexString)) := by
  rw [IpAddress.toIpv6String]
  cases ipv6Blocks ip.address with
  | nil => rfl
  | cons g gs =>
    have := flatMap_colon (toHexString g) (gs.map toHexString)
    rw [← map_cons, flatMap_map] at this
    rw [this, dropLast_concat]

theorem groupBytes_ipv6Blocks : ∀ (n : Nat) (bs : List UInt8), bs.length = 2 * n → groupBytes (ipv6Blocks bs) = bs
  | 0, bs, h => by
    rw [eq_nil_of_length_eq_zero h]
    rfl
  | n + 1, [], h => by simp at h
  | n + 1, [_], h => by simp at h; omega
  | n + 1, a :: b :: bs, h => by
    have ih := groupBytes_ipv6Blocks n bs (by simp at h; omega)
    have ha := a.toNat_lt
    have hb := b.toNat_lt
    rw [ipv6Blocks, groupBytes, flatMap_cons, ← groupBytes, ih,
      show (a.toNat * 256 + b.toNat) / 256 = a.toNat by omega,
      show (a.toNat * 256 + b.toNat) % 256 = b.toNat by omega]
    simp

theorem ipv6Blocks_lt : ∀ (bs : List UInt8), ∀ g ∈ ipv6Blocks bs, g < 16 ^ 4
  | [], g, hg => by cases hg
  | [_], g, hg => by cases hg
  | a :: b :: bs, g, hg => by
    have ha := a.toNat_lt
    have hb := b.toNat_lt
    rcases mem_cons.mp hg with rfl | hg
    · omega
    · exact ipv6Blocks_lt bs g hg

theorem length_ipv6Blocks : ∀ (n : Nat) (bs : List UInt8), bs.length = 2 * n → (ipv6Blocks bs).length = n
  | 0, bs, h => by
    rw [eq_nil_of_length_eq_zero h]
    rfl
  | n + 1, [], h => by simp at h
  | n + 1, [_], h => by simp at h; omega
  | n + 1, a :: b :: bs, h => by
    rw [ipv6Blocks, length_cons, length_ipv6Blocks n bs (by simp at h; omega)]

theorem isWord_digitChar : ∀ d < 16, isWord d.digitChar = true := by decide

theorem isWord_toHexString (g : Nat) : ∀ x ∈ toHexString g, isWord x = true := by
  intro x hx
  obtain ⟨d, hd, rfl⟩ := exists_of_mem_toDigits (by decide) g x hx
  exact isWord_digitChar d hd

theorem isWord_blocks (gs : List Nat) : ∀ b ∈ gs.map toHexString, ∀ x ∈ b, isWord x = true := by
  intro b hb
  obtain ⟨g, _, rfl⟩ := mem_map.mp hb
  exact isWord_toHexString g

theorem colon_notMem_toHexString (g : Nat) : ':' ∉ toHexString g := colon_notMem_of_isWord (isWord_toHexString g)

/-! ## The round trip -/

theorem parseGroup_toHexString {g : Nat} (hg : g < 16 ^ 4) : parseGroup (toHexString g) = some g := by
  have hl : (toHexString g).length ≤ 4 := (Nat.length_toDigits_le_iff (by decide) (by decide)).mpr hg
  rw [parseGroup, if_neg, toHexString, number_toDigits (by decide) (by decide)]
  rintro (h | h)
  · exact Nat.toDigits_ne_nil h
  · omega

theorem parseOctet_toDigits (b : UInt8) : parseOctet (Nat.toDigits 10 b.toNat) = some b := by
  have hb := b.toNat_lt
  have hl : (Nat.toDigits 10 b.toNat).length ≤ 3 :=
    (Nat.length_toDigits_le_iff (by decide) (by decide)).mpr (by omega)
  rw [parseOctet, if_neg, number_toDigits (by decide) (by decide), Option.bind_some, if_pos (by omega)]
  · simp
  · rintro (h | h)
    · exact Nat.toDigits_ne_nil h
    · omega

theorem mapM_map_some {α β : Type} {f : α → β} {g : β → Option α} :
    ∀ {l : List α}, (∀ a ∈ l, g (f a) = some a) →
    (l.map f).mapM g = some l
  | [], _ => rfl
  | a :: l, h => by
    rw [map_cons, mapM_cons, h a mem_cons_self, mapM_map_some fun b hb => h b (mem_cons_of_mem _ hb)]
    rfl

theorem join_toHexString_ne_nil (g : Nat) (gs : List Nat) : join ((g :: gs).map toHexString) ≠ [] := by
  rw [map_cons, join_cons]
  exact fun h => Nat.toDigits_ne_nil (append_eq_nil_iff.mp h).1

theorem parseGroups_join {gs : List Nat} (hg : ∀ g ∈ gs, g < 16 ^ 4) :
    parseGroups (join (gs.map toHexString)) = some gs := by
  cases gs with
  | nil => rfl
  | cons g gs =>
    rw [parseGroups, if_neg (join_toHexString_ne_nil g gs), splitOn_join (by simp)]
    · exact mapM_map_some fun g hg' => parseGroup_toHexString (hg g hg')
    · intro b hb
      obtain ⟨g', _, rfl⟩ := mem_map.mp hb
      exact colon_notMem_toHexString g'

theorem breakDouble_block {t : List Char} (ht : t.head? ≠ some ':') (hd : breakDouble t = none) :
    ∀ {b : List Char}, b ≠ [] → ':' ∉ b → breakDouble (b ++ ':' :: t) = none
  | [], hne, _ => absurd rfl hne
  | [x], _, hx => by
    have hx : x ≠ ':' := fun h => hx (by rw [h]; exact mem_cons_self)
    have hta : breakDouble (':' :: t) = none := by
      cases t with
      | nil => rfl
      | cons y t =>
        have hy : y ≠ ':' := fun h => ht (by rw [h]; rfl)
        simp [breakDouble, hy, hd]
    simp [breakDouble, hx, hta]
  | x :: y :: b, _, hx => by
    have hx' : x ≠ ':' := fun h => hx (by rw [h]; exact mem_cons_self)
    have ih := breakDouble_block ht hd (cons_ne_nil y b) fun h => hx (mem_cons_of_mem _ h)
    simp only [cons_append] at ih ⊢
    simp [breakDouble, hx', ih]

theorem breakDouble_of_notMem : ∀ {b : List Char}, ':' ∉ b → breakDouble b = none
  | [], _ => rfl
  | [_], _ => rfl
  | x :: y :: b, hx => by
    have hx' : x ≠ ':' := fun h => hx (by rw [h]; exact mem_cons_self)
    have ih := breakDouble_of_notMem (b := y :: b) fun h => hx (mem_cons_of_mem _ h)
    simp [breakDouble, hx', ih]

theorem breakDouble_join {t : List Char} (ht : t = [] ∨ t = [':']) : ∀ {gs : List Nat}, gs ≠ [] →
    breakDouble (join (gs.map toHexString) ++ t) = none ∧ (join (gs.map toHexString) ++ t).head? ≠ some ':'
  | [], hne => absurd rfl hne
  | g :: gs, _ => by
    have hc := colon_notMem_toHexString g
    have hhe : ∀ s, (toHexString g ++ s).head? ≠ some ':' := by
      intro s h
      obtain ⟨x, xs, hx⟩ := exists_cons_of_ne_nil (show toHexString g ≠ [] from Nat.toDigits_ne_nil)
      rw [hx] at h hc
      obtain rfl : x = ':' := Option.some.inj h
      exact hc mem_cons_self
    cases gs with
    | nil =>
      rw [map_singleton, join, intercalate_singleton]
      refine ⟨?_, hhe _⟩
      rcases ht with rfl | rfl
      · rw [append_nil]; exact breakDouble_of_notMem hc
      · exact breakDouble_block (by simp) rfl Nat.toDigits_ne_nil hc
    | cons g' gs =>
      obtain ⟨hd, hh⟩ := breakDouble_join ht (cons_ne_nil g' gs)
      have he : join ((g :: g' :: gs).map toHexString) ++ t = toHexString g ++ ':' ::
          (join ((g' :: gs).map toHexString) ++ t) := by
        rw [map_cons, map_cons, join, intercalate_cons_cons, ← join]
        simp
      rw [he]
      exact ⟨breakDouble_block hh hd Nat.toDigits_ne_nil hc, hhe _⟩

/-- The first `::` is found. -/
theorem breakDouble_append : ∀ (s r : List Char), breakDouble (s ++ [':']) = none →
    breakDouble (s ++ ':' :: ':' :: r) = some (s, r)
  | [], r, _ => by simp [breakDouble]
  | [x], r, h => by
    by_cases hx : x = ':'
    · simp [breakDouble, hx] at h
    · simp [breakDouble, hx]
  | x :: y :: s, r, h => by
    simp only [cons_append, breakDouble] at h ⊢
    split at h
    · cases h
    · rename_i hxy
      rw [Option.map_eq_none_iff] at h
      rw [if_neg hxy, ← cons_append, breakDouble_append (y :: s) r h]
      rfl

theorem parseIpv6_double {gl gr : List Nat} (hl : ∀ g ∈ gl, g < 16 ^ 4) (hr : ∀ g ∈ gr, g < 16 ^ 4)
    (hlen : gl.length + gr.length ≤ 7) :
      parseIpv6 (join (gl.map toHexString) ++ ':' :: ':' :: join (gr.map toHexString)) =
      some (groupBytes (gl ++ List.replicate (8 - (gl.length + gr.length)) 0 ++ gr)) := by
  have hb : breakDouble (join (gl.map toHexString) ++ [':']) = none := by
    by_cases hgl : gl = []
    · subst hgl; rfl
    · exact (breakDouble_join (.inr rfl) hgl).1
  rw [parseIpv6, breakDouble_append _ _ hb]
  simp only [parseGroups_join hl, parseGroups_join hr, Option.bind_some, if_pos hlen]

theorem zero_of_zeros {g : Nat} (h : Zeros (toHexString g)) : g = 0 := by
  obtain ⟨n, hn⟩ := h
  have hp : ∀ n, List.foldlM (pushDigit 16) 0 (List.replicate n '0') = some 0 := by
    intro n
    induction n with
    | zero => rfl
    | succ n ih => exact ih
  have hnu : number 16 (toHexString g) = some g := number_toDigits (by decide) (by decide) g
  rw [hn, number, hp] at hnu
  exact (Option.some.inj hnu).symm

theorem parseIpv6_canonical {gs : List Nat} (hg : ∀ g ∈ gs, g < 16 ^ 4) (hl : gs.length = 8) :
    parseIpv6 (convertIpv6ToCanonicalForm (join (gs.map toHexString))) = some (groupBytes gs) := by
  have hne : gs ≠ [] := by rintro rfl; simp at hl
  rcases convertIpv6ToCanonicalForm_cases (by simpa using hne) (isWord_blocks gs)
    with h | ⟨l, zs, r, hbs, hzl, hz, _, _, h⟩
  · have hb := (breakDouble_join (.inl rfl) hne).1
    rw [append_nil] at hb
    rw [h, parseIpv6, hb]
    simp only [parseGroups_join hg, Option.bind_some, if_pos hl]
  · obtain ⟨glz, gr, rfl, hlz, rfl⟩ := map_eq_append_iff.mp hbs
    obtain ⟨gl, gz, rfl, rfl, rfl⟩ := map_eq_append_iff.mp hlz
    -- the blocks replaced are zeros
    have hze : gz = List.replicate gz.length 0 :=
      eq_replicate_iff.mpr ⟨rfl, fun g hg => zero_of_zeros (hz _ (mem_map_of_mem hg))⟩
    simp only [length_append] at hl
    rw [length_map] at hzl
    rw [h, parseIpv6_double (fun g hm => hg g (by simp [hm])) (fun g hm => hg g (by simp [hm])) (by omega),
      show 8 - (gl.length + gr.length) = gz.length by omega, ← hze]

theorem dot_notMem_toDigits (n : Nat) : '.' ∉ Nat.toDigits 10 n := by
  intro h
  obtain ⟨d, hd, he⟩ := exists_of_mem_toDigits (by decide) n _ h
  have : ∀ d < 10, '.' ≠ d.digitChar := by decide
  exact this d hd he

theorem parseIpv4_toString (h4 : ip.size = 4) : parseIpv4 ip.toString = some ip.address := by
  have hsplit : ip.toString.splitOn '.' = ip.address.map fun b => Nat.toDigits 10 b.toNat := by
    rw [IpAddress.toString, if_neg (by omega)]
    refine splitOn_intercalate '.' ?_ ?_
    · intro b hb
      obtain ⟨x, _, rfl⟩ := mem_map.mp hb
      exact dot_notMem_toDigits x.toNat
    · intro h
      rw [map_eq_nil_iff] at h
      simp [IpAddress.size, h] at h4
  rw [parseIpv4, hsplit, if_pos (by rw [length_map]; exact h4)]
  exact mapM_map_some fun b _ => parseOctet_toDigits b

theorem dot_notMem_canonical {bs : List (List Char)} (hne : bs ≠ [])
    (hb : ∀ b ∈ bs, ∀ x ∈ b, isWord x = true) :
    '.' ∉ convertIpv6ToCanonicalForm (join bs) := by
  have hjo : ∀ l : List (List Char), (∀ b ∈ l, b ∈ bs) → '.' ∉ join l := by
    intro l hl hd
    have := plain_join (fun b hbl => hb b (hl b hbl)) '.' hd
    revert this
    decide
  rcases convertIpv6ToCanonicalForm_cases hne hb with h | ⟨l, zs, r, rfl, _, _, _, _, h⟩
  · rw [h]; exact hjo bs fun _ => id
  · rw [h]
    have hl := hjo l fun b hb => by simp [hb]
    have hr := hjo r fun b hb => by simp [hb]
    simp [hl, hr]

theorem parse_toString_ipv6 (h16 : ip.size = 16) : '.' ∉ ip.toString ∧ parseIpv4 ip.toString = none ∧
    parseIpv6 ip.toString = some ip.address := by
  have ht : ip.toString = convertIpv6ToCanonicalForm (join ((ipv6Blocks ip.address).map toHexString)) := by
    rw [IpAddress.toString, if_pos (by omega), toIpv6String_eq]
  have hl := length_ipv6Blocks 8 ip.address h16
  have hd : '.' ∉ ip.toString := by
    rw [ht]
    refine dot_notMem_canonical (fun h => ?_) (isWord_blocks _)
    rw [map_eq_nil_iff] at h
    rw [h] at hl
    cases hl
  refine ⟨hd, by rw [parseIpv4, splitOn_eq_singleton hd]; rfl, ?_⟩
  rw [ht, parseIpv6_canonical (ipv6Blocks_lt _) hl, groupBytes_ipv6Blocks 8 _ h16]

/-- **Parsing the text of an address gives the address back**, unless the JDK turns it into an IPv4 address. -/
theorem parseInetAddress_toString (hm : ip.size = 16 → isIpv4Mapped ip.address = false) :
    parseInetAddress ip.toString = some ip.toInetAddress := by
  rw [parseInetAddress]
  rcases ip.size_cases with h4 | h16
  · rw [parseIpv4_toString ip h4]
    exact InetAddress.ofBytes_toInetAddress ip
  · obtain ⟨hd, hv4, hv6⟩ := parse_toString_ipv6 ip h16
    simp only [hd, hv4, hv6, Option.bind_some, hm h16, if_false]
    exact InetAddress.ofBytes_toInetAddress ip

theorem parseInetAddress_toString_mapped (h16 : ip.size = 16) (hm : isIpv4Mapped ip.address = true) :
    parseInetAddress ip.toString = some ⟨ip.address.drop 12,
      .inl (by rw [length_drop, show ip.address.length = 16 from h16])⟩ := by
  obtain ⟨hd, hv4, hv6⟩ := parse_toString_ipv6 ip h16
  rw [parseInetAddress]
  simp only [hd, hv4, hv6, Option.bind_some, hm, if_true, if_false]
  exact dif_pos _

theorem zeros_toHexString_iff {g : Nat} : Zeros (toHexString g) ↔ toHexString g = ['0'] := by
  constructor
  · intro h
    rw [zero_of_zeros h]
    rfl
  · intro h
    exact ⟨0, h⟩

def IpAddress.hexBlocks (ip : IpAddress) : List (List Char) := (ipv6Blocks ip.address).map toHexString

/-- The text of an IPv6 address is that of its blocks, of which one whole run of at least two zeros may be replaced. -/
theorem toString_ipv6_cases (h16 : ip.size = 16) :
    ip.toString = join ip.hexBlocks ∨ ∃ l zs r, ip.hexBlocks = l ++ zs ++ r ∧ 2 ≤ zs.length ∧
      (∀ z ∈ zs, z = ['0']) ∧
      (∀ b ∈ l.getLast?, b ≠ ['0']) ∧ (∀ b ∈ r.head?, b ≠ ['0']) ∧
      ip.toString = join l ++ ':' :: ':' :: join r := by
  have ht : ip.toString = convertIpv6ToCanonicalForm (join ip.hexBlocks) := by
    rw [IpAddress.toString, if_pos (by omega), toIpv6String_eq]
    rfl
  have hne : ip.hexBlocks ≠ [] := by
    intro h
    have hlen := length_ipv6Blocks 8 ip.address h16
    rw [IpAddress.hexBlocks, map_eq_nil_iff] at h
    rw [h] at hlen
    cases hlen
  have hze : ∀ b ∈ ip.hexBlocks, Zeros b ↔ b = ['0'] := by
    intro b hb
    obtain ⟨g, _, rfl⟩ := mem_map.mp hb
    exact zeros_toHexString_iff
  rw [ht]
  rcases convertIpv6ToCanonicalForm_cases hne (isWord_blocks _) with h | ⟨l, zs, r, hbs, hlen, hz, hl, hr, h⟩
  · exact .inl h
  · have hm : ∀ b, b ∈ l ∨ b ∈ zs ∨ b ∈ r → b ∈ ip.hexBlocks := by
      intro b hb
      rw [hbs]
      simpa [or_assoc] using hb
    refine .inr ⟨l, zs, r, hbs, hlen, fun z hzs => ?_, fun b hb => ?_, fun b hb => ?_, h⟩
    · exact (hze z (hm z (.inr (.inl hzs)))).mp (hz z hzs)
    · exact fun he => hl b hb ((hze b (hm b (.inl (mem_of_getLast? hb)))).mpr he)
    · exact fun he => hr b hb ((hze b (hm b (.inr (.inr (mem_of_mem_head? hb))))).mpr he)

/-- **Text round trip.** The text of an address that is not IPv4-mapped reads as the bytes of the address; for IPv6 it
is made of the eight blocks, with at most one run of at least two zero blocks replaced. -/
theorem toString_reads_back (ip : IpAddress) (hmap : ip.size = 16 → isIpv4Mapped ip.address = false) :
    (parseInetAddress ip.toString).map (·.address) = some ip.address ∧
      (ip.size = 16 → ip.hexBlocks.length = 8 ∧ (ip.toString = join ip.hexBlocks ∨
        ∃ l zs r, ip.hexBlocks = l ++ zs ++ r ∧ 2 ≤ zs.length ∧ (∀ z ∈ zs, z = ['0']) ∧
          (∀ b ∈ l.getLast?, b ≠ ['0']) ∧
          (∀ b ∈ r.head?, b ≠ ['0']) ∧ ip.toString = join l ++ ':' :: ':' :: join r)) := by
  refine ⟨by rw [parseInetAddress_toString ip hmap]; rfl, fun h16 => ⟨?_, toString_ipv6_cases ip h16⟩⟩
  rw [IpAddress.hexBlocks, length_map]
  exact length_ipv6Blocks 8 ip.address h16

/-- `2001:db8:0:0:1:0:0:1`. -/
def twoRuns : IpAddress := ⟨[0x20, 0x01, 0x0d, 0xb8, 0, 0, 0, 0, 0, 1, 0, 0, 0, 0, 0, 1], .inr rfl⟩

theorem twoRuns_reads_back :
    isIpv4Mapped twoRuns.address = false ∧
    (parseInetAddress twoRuns.toString).map (·.address) = some twoRuns.address :=
  ⟨by decide, (toString_reads_back twoRuns fun _ => by decide).1⟩

end Cimogus.Net

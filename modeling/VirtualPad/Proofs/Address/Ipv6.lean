import VirtualPad.Address.Ipv6
import VirtualPad.Proofs.Address.Ipv4

/-!
# Reading IPv6 addresses back

Groups that were written are read up to where no group can follow. The run of zeros that a written
address leaves out is the one that its reader puts back, and an address that shows an IPv4 address
is read through it.
-/
namespace VirtualPad.Ipv6

def digits (g : UInt16) : List Char := Nat.toDigits 16 g.toNat

def laterGroup (g : UInt16) : List Char := ':' :: digits g

theorem groupsText_cons (g : UInt16) (gs : List UInt16) :
    groupsText (g :: gs) = digits g ++ gs.flatMap laterGroup := by
  induction gs generalizing g with
  | nil => exact (List.append_nil _).symm
  | cons h gs ih =>
    rw [groupsText, ih, List.flatMap_cons]
    · rfl
    · exact List.cons_ne_nil h gs

theorem isHexDigit_digitChar {d : Nat} (h : d < 16) : isHexDigit d.digitChar = true := by
  rw [isHexDigit, Hex.value?_digitChar h, Option.isSome_some]

theorem isHexDigit_of_mem {g : UInt16} {c : Char} (hc : c ∈ digits g) : isHexDigit c = true := by
  obtain ⟨d, hd, rfl⟩ := exists_digit_of_mem_toDigits (by decide) hc
  exact isHexDigit_digitChar hd

theorem isDigit_eq_false {c : Char} (h : isHexDigit c = false) : c.isDigit = false := by
  rw [Bool.eq_false_iff] at h ⊢
  intro hd
  have hrange : '0' ≤ c ∧ c ≤ '9' :=
    (Bool.and_eq_true_iff.1 hd).imp of_decide_eq_true of_decide_eq_true
  apply h
  rw [isHexDigit, Hex.value?, if_pos hrange, Option.isSome_some]

theorem length_digits (g : UInt16) : 1 ≤ (digits g).length ∧ (digits g).length ≤ 4 := by
  have hg := g.toNat_lt
  refine ⟨Nat.length_toDigits_pos, ?_⟩
  rw [digits, Nat.length_toDigits_le_iff (by decide) (by decide)]
  omega

/-! ## One group -/

section Group
variable {rest : List Char} (h : StopsAt isHexDigit rest)
include h

theorem readGroup_digits (g : UInt16) : readGroup (digits g ++ rest) = some (g, rest) := by
  have hall : ∀ c ∈ digits g, isHexDigit c = true := fun _ => isHexDigit_of_mem
  rw [readGroup, takeWhile_append_of_stopsAt hall h, dropWhile_append_of_stopsAt hall h,
    if_pos (length_digits g), digits, Hex.foldl_toDigits, UInt16.ofNat_toNat]

theorem readGroup_eq_none : readGroup rest = none := by
  rw [readGroup, h.takeWhile_eq]
  exact if_neg (by decide)

theorem readIpv4_eq_none (hp : rest.head? ≠ some '.') : Ipv4.read rest = none := by
  apply Ipv4.read_eq_none
  rwa [(h.mono fun _ => isDigit_eq_false).dropWhile_eq]

theorem readIpv4_digits (hp : rest.head? ≠ some '.') (g : UInt16) :
    Ipv4.read (digits g ++ rest) = none := by
  apply Ipv4.read_eq_none
  rw [List.dropWhile_append, (h.mono fun _ => isDigit_eq_false).dropWhile_eq]
  split
  · exact hp
  · next hne =>
    rw [List.isEmpty_iff] at hne
    rw [List.head?_append, Option.or_of_isSome (List.isSome_head?.2 hne)]
    intro hhead
    have hmem := (List.dropWhile_sublist _).subset (List.mem_of_head? hhead)
    exact absurd (isHexDigit_of_mem hmem) (by decide)

end Group

/-! ## Groups in a row -/

/-- Nothing at the front of `rest` is read as a group, or as more of the group before it. -/
structure EndsAt (rest : List Char) : Prop where
  digit : StopsAt isHexDigit rest
  point : rest.head? ≠ some '.'
  group : ∀ body, rest = ':' :: body → StopsAt isHexDigit body ∧ body.head? ≠ some '.'

variable {rest : List Char} {gs : List UInt16}

theorem EndsAt.readGroups_eq (h : EndsAt rest) (n : Nat) (first : Bool) :
    readGroups n first rest = ⟨[], false, rest⟩ := by
  cases n with
  | zero => rfl
  | succ n =>
    cases hb : if first then some rest else Reader.expect ':' rest with
    | none => simp only [readGroups, hb]
    | some body =>
      have hbody : StopsAt isHexDigit body ∧ body.head? ≠ some '.' := by
        cases first with
        | true =>
          cases hb
          exact ⟨h.digit, h.point⟩
        | false =>
          cases rest with
          | nil => cases hb
          | cons c rest =>
            obtain ⟨rfl, ⟨⟩⟩ := Option.ite_none_right_eq_some.1 hb
            exact h.group _ rfl
      simp only [readGroups, hb, readIpv4_eq_none hbody.1 hbody.2, readGroup_eq_none hbody.1,
        ite_self]

theorem readGroups_digits (h : StopsAt isHexDigit rest) (hp : rest.head? ≠ some '.') (n : Nat)
    (g : UInt16) :
    readGroups (n + 1) true (digits g ++ rest) =
      ⟨g :: (readGroups n false rest).groups, (readGroups n false rest).endsInIpv4,
        (readGroups n false rest).rest⟩ := by
  simp only [readGroups, if_true, readIpv4_digits h hp, ite_self, readGroup_digits h]

theorem readGroups_laterGroup (h : StopsAt isHexDigit rest) (hp : rest.head? ≠ some '.') (n : Nat)
    (g : UInt16) :
    readGroups (n + 1) false (laterGroup g ++ rest) = readGroups (n + 1) true (digits g ++ rest) := by
  simp only [readGroups, laterGroup, List.cons_append, Bool.false_eq_true, if_false, if_true,
    Reader.expect_cons, readIpv4_digits h hp, ite_self, readGroup_digits h]

theorem EndsAt.laterGroups (h : EndsAt rest) (gs : List UInt16) :
    StopsAt isHexDigit (gs.flatMap laterGroup ++ rest) ∧
      (gs.flatMap laterGroup ++ rest).head? ≠ some '.' := by
  cases gs with
  | nil => exact ⟨h.digit, h.point⟩
  | cons g gs => exact ⟨stopsAt_cons (by decide) _, by simp [laterGroup]⟩

theorem EndsAt.readGroups_later (h : EndsAt rest) (gs : List UInt16) {n : Nat}
    (hn : gs.length ≤ n) :
    readGroups n false (gs.flatMap laterGroup ++ rest) = ⟨gs, false, rest⟩ := by
  induction gs generalizing n with
  | nil => exact h.readGroups_eq n false
  | cons g gs ih =>
    obtain ⟨n, rfl⟩ : ∃ m, n = m + 1 := ⟨n - 1, by rw [List.length_cons] at hn; omega⟩
    have hl := h.laterGroups gs
    rw [List.flatMap_cons, List.append_assoc, readGroups_laterGroup hl.1 hl.2,
      readGroups_digits hl.1 hl.2, ih (Nat.le_of_succ_le_succ hn)]

theorem EndsAt.readGroups_groupsText (h : EndsAt rest) (gs : List UInt16) {n : Nat}
    (hn : gs.length ≤ n) : readGroups n true (groupsText gs ++ rest) = ⟨gs, false, rest⟩ := by
  cases gs with
  | nil => exact h.readGroups_eq n true
  | cons g gs =>
    obtain ⟨n, rfl⟩ : ∃ m, n = m + 1 := ⟨n - 1, by rw [List.length_cons] at hn; omega⟩
    have hl := h.laterGroups gs
    rw [groupsText_cons, List.append_assoc, readGroups_digits hl.1 hl.2,
      h.readGroups_later gs (Nat.le_of_succ_le_succ hn)]

theorem endsAt_colons (cs : List Char) : EndsAt (':' :: ':' :: cs) where
  digit := stopsAt_cons (by decide) _
  point := by simp
  group := by
    intro body hbody
    cases hbody
    exact ⟨stopsAt_cons (by decide) _, by simp⟩

/-! ## The zeros that are left out -/

theorem zeroRun_le (gs : List UInt16) : (zeroRun gs).2 ≤ zerosAt gs (zeroRun gs).1 := by
  refine List.foldlRecOn (motive := fun run : Nat × Nat => run.2 ≤ zerosAt gs run.1) _ _
    (Nat.zero_le _) ?_
  intro best h i _
  split
  · exact Nat.le_refl _
  · exact h

theorem take_drop_eq_zeros {start length : Nat} (h : length ≤ zerosAt gs start) :
    (gs.drop start).take length = List.replicate length 0 := by
  have hsplit := List.takeWhile_append_dropWhile (p := fun g : UInt16 => decide (g = 0))
    (l := gs.drop start)
  rw [← hsplit, List.take_append_of_le_length h, List.eq_replicate_iff]
  refine ⟨List.length_take_of_le h, fun g hg => ?_⟩
  exact of_decide_eq_true (List.all_eq_true.1 List.all_takeWhile g (List.mem_of_mem_take hg))

theorem put_back_zeros {start length : Nat} (h : length ≤ zerosAt gs start) :
    gs.take start ++ List.replicate length 0 ++ gs.drop (start + length) = gs := by
  rw [← take_drop_eq_zeros h, ← List.drop_drop, List.append_assoc, List.take_append_drop,
    List.take_append_drop]

/-! ## Addresses -/

def isAddressChar (c : Char) : Bool :=
  isHexDigit c || c = ':' || c = '.'

theorem ofGroups?_groups (ip : Ipv6) : ofGroups? ip.groups = some ip :=
  dif_pos ip.length_groups

section Address
variable (h : StopsAt isAddressChar rest)
include h

theorem stopsAt_isHexDigit : StopsAt isHexDigit rest :=
  h.mono fun _ hc => (Bool.or_eq_false_iff.1 (Bool.or_eq_false_iff.1 hc).1).1

theorem endsAt : EndsAt rest where
  digit := stopsAt_isHexDigit h
  point := h.head?_ne rfl
  group _ hbody := absurd hbody (h.head_ne rfl)

end Address

theorem read_colons {cs body : List Char} {front : List UInt16} {back : Groups}
    (hfront : readGroups 8 true cs = ⟨front, false, ':' :: ':' :: body⟩)
    (hl : front.length ≠ 8) (hback : readGroups (7 - front.length) true body = back) :
    read cs = (ofGroups? (front ++
      List.replicate (8 - front.length - back.groups.length) 0 ++ back.groups)).map
        (·, back.rest) := by
  simp only [read, hfront, if_neg hl, Bool.false_eq_true, if_false, Reader.expect_cons, hback,
    Option.bind_eq_bind, Option.bind_some, Option.map_eq_bind]
  rfl

theorem read_shortened {ip : Ipv6} (h : StopsAt isAddressChar rest) {start length : Nat}
    (hl : 1 < length) (hz : length ≤ zerosAt ip.groups start) :
    read (groupsText (ip.groups.take start) ++
      ':' :: ':' :: groupsText (ip.groups.drop (start + length)) ++ rest) = some (ip, rest) := by
  have height := ip.length_groups
  have hback := congrArg List.length (put_back_zeros hz)
  simp only [List.length_append, List.length_replicate] at hback
  have hcolons := endsAt_colons (groupsText (ip.groups.drop (start + length)) ++ rest)
  have hfront := hcolons.readGroups_groupsText (ip.groups.take start) (n := 8) (by omega)
  have hrest := (endsAt h).readGroups_groupsText (ip.groups.drop (start + length))
    (n := 7 - (ip.groups.take start).length) (by omega)
  rw [List.append_assoc, List.cons_append, List.cons_append,
    read_colons hfront (by omega) hrest]
  have hzeros : 8 - (ip.groups.take start).length - (ip.groups.drop (start + length)).length =
      length := by omega
  rw [hzeros, put_back_zeros hz, ofGroups?_groups, Option.map_some]

theorem readGroups_mapped (h : StopsAt isAddressChar rest) (ip : Ipv4) :
    readGroups 7 true ("ffff:".toList ++ ip.text ++ rest) = ⟨0xFFFF :: ip.groups, true, rest⟩ := by
  have hip : Ipv4.read (ip.text ++ rest) = some (ip, rest) :=
    ip.read_text ((stopsAt_isHexDigit h).mono fun _ => isDigit_eq_false)
  have hlast : readGroups 6 false (':' :: (ip.text ++ rest)) = ⟨ip.groups, true, rest⟩ := by
    simp only [readGroups, Bool.false_eq_true, if_false, Reader.expect_cons, hip, Nat.reduceLeDiff,
      if_true]
  have hfirst := readGroups_digits (stopsAt_cons (c := ':') (by decide) (ip.text ++ rest)) (by simp)
    6 0xFFFF
  rw [hlast] at hfirst
  exact hfirst

theorem read_text (ip : Ipv6) (h : StopsAt isAddressChar rest) :
    read (ip.text ++ rest) = some (ip, rest) := by
  rw [text]
  split
  · next g₆ g₇ hg =>
    have hback := readGroups_mapped h (Ipv4.ofGroups g₆ g₇)
    rw [Ipv4.groups_ofGroups] at hback
    have hfront := (endsAt_colons
      ("ffff:".toList ++ (Ipv4.ofGroups g₆ g₇).text ++ rest)).readGroups_eq 8 true
    have hread := read_colons hfront (by decide) hback
    change read ("::ffff:".toList ++ (Ipv4.ofGroups g₆ g₇).text ++ rest) =
      (ofGroups? [0, 0, 0, 0, 0, 0xFFFF, g₆, g₇]).map fun ip => (ip, rest) at hread
    rw [hread, ← hg, ofGroups?_groups, Option.map_some]
  · have hz := zeroRun_le ip.groups
    generalize zeroRun ip.groups = run at hz
    obtain ⟨start, length⟩ := run
    dsimp only at hz ⊢
    split
    · next hl => exact read_shortened h hl hz
    · have hfront := (endsAt h).readGroups_groupsText ip.groups (n := 8)
        (Nat.le_of_eq ip.length_groups)
      simp only [read, hfront, if_pos ip.length_groups, ofGroups?_groups, Option.map_some]

end VirtualPad.Ipv6

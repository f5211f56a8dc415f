import ClientRoster.Address
import ClientRoster.Proofs.Text.Fields

/-!
# `ClientRoster.Proofs.Address.Text` — an address is read back from its text

The dotted form is cut at its points. In the form with groups, the first `::` of the canonical text is the gap that was
written, because no group is empty; the gap stands for the groups that were left out, because they are a run of zeros.
The two kinds are told apart by the colon: a text of groups has one, and a dotted form has none.

## Contents
- `Ipv4.read?_text`, `Ipv6.read?_text`.
- `longestRun_zero`: what stands in the run that the gap replaces.
- **`Address.ofText?_text`: each address is read back from its canonical text.**
-/

namespace ClientRoster

open Text

/-- None of the digits of a base is a colon or a point. -/
theorem separator_not_mem_toDigits {b n : Nat} (hb : 1 < b) (hb' : b ≤ 16) {sep : Char} (hsep : sep = ':' ∨ sep = '.') :
    sep ∉ Nat.toDigits b n := by
  have hdigit : ∀ d, d < 16 → Nat.digitChar d ≠ ':' ∧ Nat.digitChar d ≠ '.' := by decide
  intro h
  obtain ⟨d, hd, rfl⟩ := mem_toDigits hb h
  have hne := hdigit d (by omega)
  rcases hsep with hsep | hsep
  · exact hne.1 hsep
  · exact hne.2 hsep

/-! ## Four octets -/

namespace Ipv4

theorem octet?_octetText (o : UInt8) : octet? (octetText o) = some o := by
  have hvalue : natOfDigits? 10 (octetText o) = some o.toNat := natOfDigits?_toDigits (by decide) (by decide) _
  have hlt : o.toNat < 256 := o.toNat_lt
  have hlength : (octetText o).length ≤ 3 :=
    (Nat.length_toDigits_le_iff (by decide) (by decide)).mpr (by omega)
  have hzero : (octetText o).head? = some '0' → (octetText o).length = 1 := by
    intro hhead
    by_cases hn : o.toNat = 0
    · simp [octetText, hn]
    · exact absurd hhead (head?_toDigits_ne_zero (by decide) (by decide) hn)
  rw [octet?, hvalue]
  simp only [bind, Option.bind, if_pos (show _ ∧ _ ∧ o.toNat ≤ 255 from ⟨hlength, hzero, by omega⟩)]
  rw [UInt8.ofNat_toNat]

theorem point_not_mem_octetText (o : UInt8) : '.' ∉ octetText o :=
  separator_not_mem_toDigits (by decide) (by decide) (.inr rfl)

theorem read?_text (ip : Ipv4) : read? ip.text = some ip := by
  have hfields : fields '.' ip.text = [octetText ip.a, octetText ip.b, octetText ip.c, octetText ip.d] := by
    refine fields_joined ?_
    simp [point_not_mem_octetText]
  simp [read?, hfields, octet?_octetText]

theorem colon_not_mem_octet {digits : List Char} {o : UInt8} (h : octet? digits = some o) : ':' ∉ digits := by
  obtain ⟨value, hvalue, -⟩ := Option.bind_eq_some_iff.mp h
  intro hc
  exact digit_of_natOfDigits? hvalue hc (by decide)

/-- No colon stands in a dotted form. -/
theorem colon_not_mem_of_read? {cs : List Char} {ip : Ipv4} (h : read? cs = some ip) : ':' ∉ cs := by
  unfold read? at h
  split at h
  · next a b c d hfields =>
    obtain ⟨_, ha, h⟩ := Option.bind_eq_some_iff.mp h
    obtain ⟨_, hb, h⟩ := Option.bind_eq_some_iff.mp h
    obtain ⟨_, hc, h⟩ := Option.bind_eq_some_iff.mp h
    obtain ⟨_, hd, -⟩ := Option.bind_eq_some_iff.mp h
    rw [← joined_fields '.' cs, hfields, mem_joined]
    simp [colon_not_mem_octet ha, colon_not_mem_octet hb, colon_not_mem_octet hc, colon_not_mem_octet hd]
  · cases h

/-- No colon stands in the text of an address of four octets. -/
theorem colon_not_mem_text (ip : Ipv4) : ':' ∉ ip.text := colon_not_mem_of_read? (read?_text ip)

theorem point_mem_text (ip : Ipv4) : '.' ∈ ip.text := mem_joined.mpr (.inr ⟨rfl, by simp⟩)

end Ipv4

/-! ## Eight groups -/

namespace Ipv6

theorem group?_groupText (g : UInt16) : group? (groupText g) = some g := by
  have hvalue : natOfDigits? 16 (groupText g) = some g.toNat := natOfDigits?_toDigits (by decide) (by decide) _
  have hlt : g.toNat < 65536 := g.toNat_lt
  have hlength : (groupText g).length ≤ 4 :=
    (Nat.length_toDigits_le_iff (by decide) (by decide)).mpr (by omega)
  rw [group?, hvalue]
  simp only [bind, Option.bind, if_pos hlength]
  rw [UInt16.ofNat_toNat]

theorem groups?_map (groups : List UInt16) : groups? (groups.map groupText) = some groups := by
  induction groups with
  | nil => rfl
  | cons g groups ih =>
    cases groups with
    | nil => simp [groups?, group?_groupText]
    | cons g' groups =>
      simp only [List.map_cons] at ih ⊢
      rw [groups?, group?_groupText, ih]
      · rfl
      · simp

theorem separator_not_mem_groupText {sep : Char} (hsep : sep = ':' ∨ sep = '.') (g : UInt16) : sep ∉ groupText g :=
  separator_not_mem_toDigits (by decide) (by decide) hsep

/-- The texts of some groups are found again between the colons. -/
theorem fields_groupsText (g : UInt16) (groups : List UInt16) :
    fields ':' (groupsText (g :: groups)) = (g :: groups).map groupText := by
  rw [groupsText, List.map_cons]
  refine fields_joined ?_
  rw [← List.map_cons]
  intro p hp
  obtain ⟨g', -, rfl⟩ := List.mem_map.mp hp
  exact separator_not_mem_groupText (.inl rfl) g'

theorem point_not_mem_groupsText (groups : List UInt16) : '.' ∉ groupsText groups := by
  rw [groupsText, mem_joined]
  rintro (⟨p, hp, hc⟩ | ⟨h, -⟩)
  · obtain ⟨g, -, rfl⟩ := List.mem_map.mp hp
    exact separator_not_mem_groupText (.inr rfl) g hc
  · cases h

theorem side?_groupsText (groups : List UInt16) : side? (groupsText groups) = some groups := by
  cases groups with
  | nil => rfl
  | cons g groups =>
    have hne : (groupsText (g :: groups)).isEmpty = false := by
      cases htext : groupsText (g :: groups) with
      | nil =>
        have hfields := fields_groupsText g groups
        rw [htext] at hfields
        obtain ⟨hg, -⟩ := List.cons.inj hfields
        exact absurd hg.symm Nat.toDigits_ne_nil
      | cons c rest => rfl
    rw [side?, hne, fields_groupsText]
    exact groups?_map (g :: groups)

/-! ### The gap -/

theorem cutAtGap_cons {c : Char} (hc : c ≠ ':') (rest : List Char) :
    cutAtGap (c :: rest) = (cutAtGap rest).map fun (front, back) => (c :: front, back) := by
  rw [cutAtGap.eq_def]
  split
  · next heq => exact absurd (List.cons.inj heq).1 hc
  · next heq => cases heq
  · next heq =>
    obtain ⟨rfl, rfl⟩ := List.cons.inj heq
    rfl

theorem cutAtGap_append {piece : List Char} (h : ':' ∉ piece) (rest : List Char) :
    cutAtGap (piece ++ rest) = (cutAtGap rest).map fun (front, back) => (piece ++ front, back) := by
  induction piece with
  | nil =>
    rw [List.nil_append]
    cases cutAtGap rest <;> rfl
  | cons c piece ih =>
    obtain ⟨hc, hpiece⟩ := List.ne_and_not_mem_of_not_mem_cons h
    rw [List.cons_append, cutAtGap_cons (Ne.symm hc), ih hpiece, Option.map_map]
    rfl

/-- A single colon is no gap. -/
theorem cutAtGap_colon {c : Char} (hc : c ≠ ':') (rest : List Char) :
    cutAtGap (':' :: c :: rest) =
      (cutAtGap (c :: rest)).map fun (front, back) => (':' :: front, back) := by
  rw [cutAtGap.eq_def]
  split
  · next heq =>
    obtain ⟨-, heq⟩ := List.cons.inj heq
    exact absurd (List.cons.inj heq).1 hc
  · next heq => cases heq
  · next heq =>
    obtain ⟨rfl, rfl⟩ := List.cons.inj heq
    rfl

/-- The text of some groups begins with a digit. -/
theorem groupsText_cons (g : UInt16) (groups : List UInt16) :
    ∃ c rest, groupsText (g :: groups) = c :: rest ∧ c ≠ ':' := by
  cases hg : groupText g with
  | nil => exact absurd hg Nat.toDigits_ne_nil
  | cons c rest =>
    have hc : c ≠ ':' := by
      rintro rfl
      have hcolon := separator_not_mem_groupText (.inl rfl) g
      rw [hg] at hcolon
      exact hcolon List.mem_cons_self
    cases groups with
    | nil => exact ⟨c, rest, hg, hc⟩
    | cons g' groups =>
      refine ⟨c, rest ++ ':' :: groupsText (g' :: groups), ?_, hc⟩
      simp [groupsText, joined, hg]

/-- No gap is in the text of some groups, so the first one is found behind it. -/
theorem cutAtGap_groupsText (groups : List UInt16) (rest : List Char) : cutAtGap (groupsText groups ++ rest) =
    (cutAtGap rest).map fun (front, back) => (groupsText groups ++ front, back) := by
  induction groups with
  | nil =>
    rw [show groupsText [] = [] from rfl, List.nil_append]
    cases cutAtGap rest <;> rfl
  | cons g groups ih =>
    have hg := separator_not_mem_groupText (.inl rfl) g
    cases groups with
    | nil => exact cutAtGap_append hg rest
    | cons g' groups =>
      obtain ⟨c, tail, htext, hc⟩ := groupsText_cons g' groups
      have hjoined : groupsText (g :: g' :: groups) = groupText g ++ ':' :: groupsText (g' :: groups) := rfl
      rw [hjoined, List.append_assoc, cutAtGap_append hg, List.cons_append]
      rw [htext] at ih ⊢
      rw [List.cons_append] at ih ⊢
      rw [cutAtGap_colon hc, ih, Option.map_map, Option.map_map]
      cases cutAtGap rest with
      | none => rfl
      | some cut => simp

theorem take_zeroRun (groups : List UInt16) : groups.take (zeroRun groups) = List.replicate (zeroRun groups) 0 := by
  induction groups with
  | nil => rfl
  | cons g groups ih =>
    by_cases hg : g = 0
    · have hrun : zeroRun (g :: groups) = zeroRun groups + 1 := by simp [zeroRun, hg]
      rw [hrun, List.take_succ_cons, ih, hg, List.replicate_succ]
    · have hrun : zeroRun (g :: groups) = 0 := by simp [zeroRun, hg]
      rw [hrun]
      rfl

/-- The longest run is a run of zeros. -/
theorem longestRun_zero {groups : List UInt16} {start length : Nat} (h : longestRun groups = (start, length)) :
    groups = groups.take start ++ List.replicate length 0 ++ groups.drop (start + length) := by
  induction groups generalizing start length with
  | nil =>
    obtain ⟨rfl, rfl⟩ := Prod.mk.inj h
    rfl
  | cons g groups ih =>
    rw [longestRun] at h
    cases hrest : longestRun groups with
    | mk start' length' =>
      simp only [hrest] at h
      split at h
      · obtain ⟨rfl, rfl⟩ := Prod.mk.inj h
        rw [← take_zeroRun, List.take_zero, List.nil_append, Nat.zero_add, List.take_append_drop]
      · obtain ⟨rfl, rfl⟩ := Prod.mk.inj h
        have hgroups := congrArg (g :: ·) (ih hrest)
        rwa [show start' + 1 + length' = start' + length' + 1 by omega]

/-! ### The three forms of the canonical text -/

theorem groupsOfIpv4_ipv4OfGroups (high low : UInt16) : groupsOfIpv4 (ipv4OfGroups high low) = [high, low] := by
  have hword : ∀ g : UInt16, (g / 256).toUInt8.toUInt16 * 256 + g.toUInt8.toUInt16 = g := by
    intro g
    apply UInt16.toNat_inj.mp
    have hlt : g.toNat < 65536 := g.toNat_lt
    simp
    omega
  simp only [groupsOfIpv4, ipv4OfGroups, hword]

/-- A dotted address is no group. -/
theorem group?_ipv4 (inner : Ipv4) : group? inner.text = none := by
  cases hvalue : natOfDigits? 16 inner.text with
  | none => simp [group?, hvalue]
  | some value => exact absurd (by decide) (digit_of_natOfDigits? hvalue inner.point_mem_text)

theorem ofGroups?_groups (ip : Ipv6) : ofGroups? ip.groups = some ip := by
  simp [ofGroups?, ip.length_groups]

/-- The text of an address that maps another is read by its dotted tail. -/
theorem read?_mapped {ip : Ipv6} {inner : Ipv4} (h : ip.mapped? = some inner) :
    read? ("::ffff:".toList ++ inner.text) = some ip := by
  unfold mapped? at h
  split at h
  · next high low hgroups =>
    obtain rfl := Option.some.inj h
    have hcut : cutAtGap ("::ffff:".toList ++ (ipv4OfGroups high low).text) =
        some ([], ['f', 'f', 'f', 'f'] ++ ':' :: (ipv4OfGroups high low).text) := rfl
    have hfields : fields ':' (['f', 'f', 'f', 'f'] ++ ':' :: (ipv4OfGroups high low).text) =
        [['f', 'f', 'f', 'f'], (ipv4OfGroups high low).text] := by
      show fields ':' (joined ':' [['f', 'f', 'f', 'f'], (ipv4OfGroups high low).text]) = _
      refine fields_joined ?_
      intro p hp
      rcases List.mem_cons.mp hp with rfl | hp
      · decide
      · obtain rfl := List.mem_singleton.mp hp
        exact Ipv4.colon_not_mem_text _
    have hlast : groups? [(ipv4OfGroups high low).text] = some [high, low] := by
      simp [groups?, group?_ipv4, Ipv4.read?_text, groupsOfIpv4_ipv4OfGroups]
    have hfirst : group? ['f', 'f', 'f', 'f'] = some 0xffff := by decide
    have hside : side? (['f', 'f', 'f', 'f'] ++ ':' :: (ipv4OfGroups high low).text) = some [0xffff, high, low] := by
      simp only [side?, hfields]
      rw [groups?, hfirst, hlast]
      · rfl
      · simp
    have hall : ofGroups? [0, 0, 0, 0, 0, 0xffff, high, low] = some ip := by
      rw [← hgroups]
      exact ofGroups?_groups ip
    rw [read?, hcut]
    simp only [hside]
    exact hall
  · cases h

/-- The text with a gap is read as the groups around it and as many zeros as are left out. -/
theorem read?_gap {ip : Ipv6} {start length : Nat} (h : gap? ip.groups = some (start, length)) :
    read? (groupsText (ip.groups.take start) ++ "::".toList ++ groupsText (ip.groups.drop (start + length))) =
      some ip := by
  have hrun : longestRun ip.groups = (start, length) ∧ 2 ≤ length := by
    unfold gap? at h
    split at h
    next start' length' hrun =>
    split at h
    · next htwo =>
      obtain ⟨rfl, rfl⟩ := Prod.mk.inj (Option.some.inj h)
      exact ⟨hrun, htwo⟩
    · cases h
  obtain ⟨hrun, htwo⟩ := hrun
  have hgroups := longestRun_zero hrun
  have hcut : cutAtGap (groupsText (ip.groups.take start) ++ "::".toList ++
      groupsText (ip.groups.drop (start + length))) =
        some (groupsText (ip.groups.take start), groupsText (ip.groups.drop (start + length))) := by
    rw [List.append_assoc, cutAtGap_groupsText]
    show (some ([], groupsText (ip.groups.drop (start + length)))).map _ = _
    simp
  have hpoint : isDotted (groupsText (ip.groups.take start)) = false := by
    simp [isDotted, point_not_mem_groupsText]
  -- the groups in front, the run and the groups behind it are eight together
  have hlength : (ip.groups.take start).length + length + (ip.groups.drop (start + length)).length = 8 := by
    have htotal := congrArg List.length hgroups
    rw [ip.length_groups, List.length_append, List.length_append, List.length_replicate] at htotal
    exact htotal.symm
  have hzeros : 8 - ((ip.groups.take start).length + (ip.groups.drop (start + length)).length) = length := by omega
  rw [read?, hcut]
  simp only [hpoint, side?_groupsText, Bool.false_eq_true, if_false, bind, Option.bind]
  rw [if_pos (by omega), hzeros, ← hgroups]
  exact ofGroups?_groups ip

/-- The text without a gap is read group by group. -/
theorem read?_groupsText (ip : Ipv6) : read? (groupsText ip.groups) = some ip := by
  have hcut : cutAtGap (groupsText ip.groups) = none := by
    have hcut := cutAtGap_groupsText ip.groups []
    rwa [List.append_nil] at hcut
  have hread : groups? (fields ':' (groupsText ip.groups)) = some ip.groups := by
    cases hgroups : ip.groups with
    | nil =>
      have hlength := ip.length_groups
      rw [hgroups] at hlength
      cases hlength
    | cons g groups =>
      rw [fields_groupsText]
      exact groups?_map (g :: groups)
  rw [read?, hcut]
  simp only [hread, bind, Option.bind]
  exact ofGroups?_groups ip

theorem read?_text (ip : Ipv6) : read? ip.text = some ip := by
  unfold text
  split
  · next hmapped => exact read?_mapped hmapped
  · split
    · next hgap => exact read?_gap hgap
    · exact read?_groupsText ip

/-- A colon stands in the text of each address of eight groups. -/
theorem colon_mem_text (ip : Ipv6) : ':' ∈ ip.text := by
  unfold text
  split
  · exact List.mem_append_left _ (by decide)
  · split
    · exact List.mem_append_left _ (List.mem_append_right _ (by decide))
    · refine mem_joined.mpr (.inr ⟨rfl, ?_⟩)
      rw [List.length_map, ip.length_groups]
      decide

end Ipv6

/-! ## Addresses -/

namespace Address

/-- **Each address is read back from its canonical text.** -/
theorem ofText?_text (a : Address) : ofText? a.text = some a := by
  rw [ofText?, text, String.toList_ofList]
  cases a with
  | v4 ip =>
    rw [show chars (v4 ip) = ip.text from rfl, Ipv4.read?_text]
    rfl
  | v6 ip =>
    have hnone : Ipv4.read? ip.text = none := by
      cases hread : Ipv4.read? ip.text with
      | none => rfl
      | some inner => exact absurd ip.colon_mem_text (Ipv4.colon_not_mem_of_read? hread)
    rw [show chars (v6 ip) = ip.text from rfl, hnone, Ipv6.read?_text]
    rfl

/-- No two addresses have one canonical text. -/
theorem text_injective {a b : Address} (h : a.text = b.text) : a = b := by
  have hread := ofText?_text a
  rw [h, ofText?_text b] at hread
  exact (Option.some.inj hread).symm

end Address

end ClientRoster

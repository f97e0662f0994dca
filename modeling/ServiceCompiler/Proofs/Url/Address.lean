import ServiceCompiler.Proofs.Url.Escape

namespace ServiceCompiler.Url

open Text (Octets)
open Text.Octets List

/-!
# Hosts that are read back

Hosts of a URL by what they look like: names of letters, digits, points and hyphens, and the texts of IPv6 addresses.
Together with a port they are read as they were written.

* `IsIPv6Text` — eight groups of hexadecimal digits, or fewer around a double colon; the last two may be written as four
  decimal numbers.
* `isPlainIPv6_of_isIPv6Text` — all of these are read as addresses.
* `IsHost.isServer` — a host and a port in one text are read and cut apart again.
-/

variable {parts : List Octets} {b : UInt8} {text : Octets} {n : Nat}

/-! ### Texts of addresses -/

/-- Whether an octet is a hexadecimal digit. -/
def isHexOctet (b : UInt8) : Bool := isDigit b || (0x61 ≤ b && b ≤ 0x66) || (0x41 ≤ b && b ≤ 0x46)

/-- A group of an address: one to four hexadecimal digits. -/
structure IsGroup (group : Octets) : Prop where
  ne_nil : group ≠ []
  length_le : group.length ≤ 4
  isHexOctet : ∀ b ∈ group, isHexOctet b = true

/-- Parts of an address with colons between them. -/
def joined (parts : List Octets) : Octets := [0x3a].intercalate parts

def decimalOctets (n : UInt8) : Octets := (Nat.toDigits 10 n.toNat).map ascii

/-- Decimal numbers with points between them. -/
def dotted (numbers : List UInt8) : Octets := [0x2e].intercalate (numbers.map decimalOctets)

/-- The parts of an address without a double colon, and the number of groups of 16 bits that they stand for. -/
inductive IsGroups : List Octets → Nat → Prop
  | hex (groups : List Octets) (h : ∀ g ∈ groups, IsGroup g) : IsGroups groups groups.length
  | mixed (groups : List Octets) (h : ∀ g ∈ groups, IsGroup g) (a b c d : UInt8) :
    IsGroups (groups ++ [dotted [a, b, c, d]]) (groups.length + 2)

/-- The text of an IPv6 address without a zone. -/
inductive IsIPv6Text : Octets → Prop
  | full {parts : List Octets} (h : IsGroups parts 8) : IsIPv6Text (joined parts)
  | short {front back : List Octets} {n : Nat} (hfront : ∀ g ∈ front, IsGroup g) (hback : IsGroups back n)
    (h : front.length + n ≤ 7) : IsIPv6Text (joined front ++ 0x3a :: 0x3a :: joined back)

/-! ### Parts -/

theorem toNat_of_isHexOctet (h : isHexOctet b = true) :
    (0x30 ≤ b.toNat ∧ b.toNat ≤ 0x39) ∨ (0x61 ≤ b.toNat ∧ b.toNat ≤ 0x66) ∨ (0x41 ≤ b.toNat ∧ b.toNat ≤ 0x46) := by
  simpa [isHexOctet, isDigit, UInt8.le_iff_toNat_le, or_assoc] using h

theorem hexValue?_isSome (h : isHexOctet b = true) : (hexValue? b).isSome = true := by
  have hall : ∀ n < 128, isHexOctet (UInt8.ofNat n) = true → (hexValue? (UInt8.ofNat n)).isSome = true := by decide +kernel
  have hrange := toNat_of_isHexOctet h
  simpa [h] using hall b.toNat (by omega)

theorem isHexGroup_of_isGroup {group : Octets} (h : IsGroup group) : isHexGroup group = true := by
  have hne : group.isEmpty = false := by simpa using h.ne_nil
  rw [isHexGroup, hne, decide_eq_true h.length_le, all_eq_true.2 fun b hb => hexValue?_isSome (h.isHexOctet b hb)]
  rfl

theorem isByteNumber_decimalOctets (n : UInt8) :
    isByteNumber (decimalOctets n) = true ∧ (decimalOctets n).all isDigit = true := by
  have hall : ∀ n < 256, isByteNumber ((Nat.toDigits 10 n).map ascii) = true ∧
      ((Nat.toDigits 10 n).map ascii).all isDigit = true := by decide +kernel
  exact hall n.toNat n.toNat_lt

/-- The parts of addresses have digits and points only. -/
structure IsPart (part : Octets) : Prop where
  ne_nil : part ≠ []
  isHexOctet_or : ∀ b ∈ part, isHexOctet b = true ∨ b = 0x2e

theorem IsGroup.isPart {group : Octets} (h : IsGroup group) : IsPart group :=
  ⟨h.ne_nil, fun b hb => .inl (h.isHexOctet b hb)⟩

theorem IsPart.hasChar_colon {part : Octets} (h : IsPart part) : hasChar ':' part = false := by
  refine hasChar_eq_false_iff.2 fun b hb => ?_
  rcases h.isHexOctet_or b hb with hhex | rfl
  · have hrange := toNat_of_isHexOctet hhex
    simp [isChar]
    omega
  · rfl

theorem isPart_dotted (a b c d : UInt8) : IsPart (dotted [a, b, c, d]) := by
  refine ⟨?_, fun x hx => ?_⟩
  · simp [dotted, intercalate_cons_cons]
  · rcases mem_intercalate_singleton hx with rfl | ⟨part, hpart, hx⟩
    · exact .inr rfl
    · obtain ⟨n, -, rfl⟩ := mem_map.1 hpart
      have hdigit := all_eq_true.1 (isByteNumber_decimalOctets n).2 x hx
      exact .inl (by rw [isHexOctet, hdigit]; rfl)

theorem isIPv4_dotted (a b c d : UInt8) : isIPv4 (dotted [a, b, c, d]) = true := by
  have hsplit : splitOn '.' (dotted [a, b, c, d]) = [a, b, c, d].map decimalOctets := by
    refine splitOn_intercalate_of_hasChar rfl (by simp) (forall_mem_map.2 fun n _ => ?_)
    refine hasChar_eq_false_iff.2 fun x hx => ?_
    have hdigit := all_eq_true.1 (isByteNumber_decimalOctets n).2 x hx
    simp [isDigit, UInt8.le_iff_toNat_le] at hdigit
    simp [isChar]
    omega
  simp [isIPv4, hsplit, (isByteNumber_decimalOctets _).1]

theorem not_isHexGroup_dotted (a b c d : UInt8) : isHexGroup (dotted [a, b, c, d]) = false := by
  have hpoint : (0x2e : UInt8) ∈ dotted [a, b, c, d] := by simp [dotted, intercalate_cons_cons]
  rw [isHexGroup, Bool.and_eq_false_iff]
  exact .inr (all_eq_false.2 ⟨_, hpoint, by decide⟩)

theorem groupCount?_append {allowIPv4 : Bool} {groups rest : List Octets} (h : ∀ g ∈ groups, IsGroup g)
    (hrest : rest ≠ []) : groupCount? allowIPv4 (groups ++ rest) = (groupCount? allowIPv4 rest).map (· + groups.length) := by
  induction groups with
  | nil => simp
  | cons g groups ih =>
    obtain ⟨hg, hgroups⟩ := forall_mem_cons.1 h
    rw [cons_append, groupCount?, if_pos (isHexGroup_of_isGroup hg), ih hgroups, Option.map_map]
    · rfl
    · simp [hrest]

theorem groupCount?_hex (allowIPv4 : Bool) {groups : List Octets} (h : ∀ g ∈ groups, IsGroup g) :
    groupCount? allowIPv4 groups = some groups.length := by
  rcases eq_nil_or_concat groups with rfl | ⟨front, last, rfl⟩
  · rfl
  · rw [concat_eq_append] at h ⊢
    obtain ⟨hfront, hlast⟩ := forall_mem_append.1 h
    rw [groupCount?_append hfront (by simp), groupCount?, if_pos (isHexGroup_of_isGroup (hlast last (by simp)))]
    simp [Nat.add_comm]

theorem IsGroups.groupCount? (h : IsGroups parts n) : groupCount? true parts = some n := by
  cases h with
  | hex groups h => exact groupCount?_hex true h
  | mixed groups h a b c d =>
    rw [groupCount?_append h (by simp), Url.groupCount?, not_isHexGroup_dotted, isIPv4_dotted]
    simp [Nat.add_comm]

theorem IsGroups.isPart (h : IsGroups parts n) : ∀ part ∈ parts, IsPart part := by
  cases h with
  | hex groups h => exact fun g hg => (h g hg).isPart
  | mixed groups h a b c d =>
    refine forall_mem_append.2 ⟨fun g hg => (h g hg).isPart, ?_⟩
    exact forall_mem_singleton.2 (isPart_dotted a b c d)

/-! ### The double colon -/

theorem cutEllipsis?_append {part : Octets} (h : hasChar ':' part = false) (rest : Octets) :
    cutEllipsis? (part ++ rest) = (cutEllipsis? rest).map fun cut => (part ++ cut.1, cut.2) := by
  induction part with
  | nil => simp
  | cons b part ih =>
    rw [hasChar_cons, Bool.or_eq_false_iff] at h
    have hb : b ≠ 0x3a := by
      rintro rfl
      exact absurd h.1 (by decide)
    rw [cons_append, cutEllipsis?, ih h.2, Option.map_map]
    · rfl
    · exact fun _ heq => absurd heq hb

/-- A colon by itself is none. -/
theorem cutEllipsis?_colon {rest : Octets} (h : rest.head? ≠ some 0x3a) :
    cutEllipsis? (0x3a :: rest) = (cutEllipsis? rest).map fun cut => (0x3a :: cut.1, cut.2) := by
  rw [cutEllipsis?]
  rintro tail - rfl
  exact h rfl

/-- **Parts with single colons between them have no double colon**, and none begins at their end. -/
theorem cutEllipsis?_joined (h : ∀ part ∈ parts, IsPart part) (rest : Octets) :
    cutEllipsis? (joined parts ++ rest) = (cutEllipsis? rest).map fun cut => (joined parts ++ cut.1, cut.2) := by
  induction parts with
  | nil => simp [joined]
  | cons part parts ih =>
    obtain ⟨hpart, hparts⟩ := forall_mem_cons.1 h
    cases parts with
    | nil =>
      rw [joined, intercalate_singleton]
      exact cutEllipsis?_append hpart.hasChar_colon rest
    | cons next parts =>
      have hnext := hparts next mem_cons_self
      have hjoined : joined (part :: next :: parts) = part ++ 0x3a :: joined (next :: parts) := by
        rw [joined, intercalate_cons_cons, append_assoc, singleton_append]
        rfl
      -- The next part begins with no colon.
      have hhead : (joined (next :: parts) ++ rest).head? ≠ some 0x3a := by
        obtain ⟨b, octets, rfl⟩ := exists_cons_of_ne_nil hnext.ne_nil
        have hb : (joined ((b :: octets) :: parts) ++ rest).head? = some b := by
          cases parts <;> simp [joined, intercalate_cons_cons]
        have hcolon := hnext.hasChar_colon
        rw [hasChar_cons, Bool.or_eq_false_iff] at hcolon
        rw [hb]
        rintro ⟨⟩
        exact absurd hcolon.1 (by decide)
      rw [hjoined, append_assoc, cutEllipsis?_append hpart.hasChar_colon, cons_append, cutEllipsis?_colon hhead,
        ih hparts, Option.map_map, Option.map_map]
      simp [Function.comp_def]

theorem groupsOf_joined (h : ∀ part ∈ parts, IsPart part) : groupsOf (joined parts) = parts := by
  cases parts with
  | nil => rfl
  | cons part parts =>
    have hsplit : splitOn ':' (joined (part :: parts)) = part :: parts :=
      splitOn_intercalate_of_hasChar rfl (by simp) fun p hp => (h p hp).hasChar_colon
    have hne : (joined (part :: parts)).isEmpty = false := by
      have hpart := (h part mem_cons_self).ne_nil
      cases parts <;> simp [joined, intercalate_cons_cons, hpart]
    rw [groupsOf, hne, hsplit]
    rfl

/-- **The texts of addresses are read as addresses.** -/
theorem isPlainIPv6_of_isIPv6Text (h : IsIPv6Text text) : isPlainIPv6 text = true := by
  cases h with
  | @full parts h =>
    have hnone : cutEllipsis? (joined parts) = none := by
      have hcut := cutEllipsis?_joined h.isPart []
      rwa [append_nil] at hcut
    have hne : parts ≠ [] := by
      rintro rfl
      exact absurd h.groupCount? (by decide)
    have hsplit : splitOn ':' (joined parts) = parts :=
      splitOn_intercalate_of_hasChar rfl hne fun p hp => (h.isPart p hp).hasChar_colon
    rw [isPlainIPv6, hnone]
    dsimp only
    rw [hsplit, h.groupCount?]
    rfl
  | @short front back n hfront hback h =>
    have hcut := cutEllipsis?_joined (fun g hg => (hfront g hg).isPart) (0x3a :: 0x3a :: joined back)
    rw [isPlainIPv6, hcut, cutEllipsis?]
    simp only [Option.map_some, append_nil, groupsOf_joined fun g hg => (hfront g hg).isPart,
      groupsOf_joined hback.isPart, groupCount?_hex false hfront, hback.groupCount?]
    simpa using h

/-! ### Hosts -/

/-- A host: a name of letters, digits, points and hyphens, or an IPv6 address. -/
inductive IsHost : Octets → Prop
  | name {host : Octets} (hne : host ≠ []) (h : ∀ b ∈ host, (isLetter b || isDigit b || isOneOf ".-" b) = true) : IsHost host
  | address {host : Octets} (h : IsIPv6Text host) : IsHost host

theorem mem_joined (h : ∀ part ∈ parts, IsPart part) (hb : b ∈ joined parts) :
    isHexOctet b = true ∨ b = 0x2e ∨ b = 0x3a := by
  rcases mem_intercalate_singleton hb with rfl | ⟨part, hpart, hb⟩
  · exact .inr (.inr rfl)
  · exact ((h part hpart).isHexOctet_or b hb).imp_right .inl

theorem IsIPv6Text.mem (h : IsIPv6Text text) (hb : b ∈ text) : isHexOctet b = true ∨ b = 0x2e ∨ b = 0x3a := by
  cases h with
  | full h => exact mem_joined h.isPart hb
  | short hfront hback h =>
    simp only [mem_append, mem_cons] at hb
    rcases hb with hb | hb | hb | hb
    · exact mem_joined (fun g hg => (hfront g hg).isPart) hb
    · exact .inr (.inr hb)
    · exact .inr (.inr hb)
    · exact mem_joined hback.isPart hb

theorem IsGroups.le_length (h : IsGroups parts n) : n ≤ parts.length + 1 := by
  cases h with
  | hex groups h => exact Nat.le_succ _
  | mixed groups h a b c d => simp

theorem IsIPv6Text.hasChar_colon (h : IsIPv6Text text) : hasChar ':' text = true := by
  have hcolon : isChar ':' 0x3a = true := by decide
  cases h with
  | @full parts h =>
    have hlength := h.le_length
    match parts, hlength with
    | part :: next :: parts, _ =>
      rw [joined, intercalate_cons_cons]
      simp [hcolon]
  | short hfront hback h => simp [hcolon]

theorem IsIPv6Text.escapes (h : IsIPv6Text text) (hb : b ∈ text) : Component.host.escapes b = false := by
  rcases h.mem hb with hhex | rfl | rfl
  · have hclass : (isLetter b || isDigit b) = true := by
      have hrange := toNat_of_isHexOctet hhex
      simp only [isLetter, isDigit, UInt8.le_iff_toNat_le]
      simp
      omega
    unfold Component.escapes
    rw [if_pos hclass]
  · decide
  · decide

theorem IsIPv6Text.hasChar (h : IsIPv6Text text) {c : Char} (hc : c ∈ ['[', ']', '%']) : hasChar c text = false := by
  refine hasChar_eq_false_iff.2 fun b hb => ?_
  simp only [mem_cons, not_mem_nil, or_false] at hc
  rcases h.mem hb with hhex | rfl | rfl
  · have hrange := toNat_of_isHexOctet hhex
    rcases hc with rfl | rfl | rfl <;> simp [isChar] <;> omega
  · rcases hc with rfl | rfl | rfl <;> decide
  · rcases hc with rfl | rfl | rfl <;> decide

/-- A text that is read as a host with a port, as it stands, and has these two parts. -/
structure IsServer (text host port : Octets) : Prop where
  plain : ∀ b ∈ text, Component.host.escapes b = false
  readHost? : readHost? text = some text
  splitHost : splitHost text = (host, port)

theorem cutZone?_eq_none {octets : Octets} (h : hasChar '%' octets = false) : cutZone? octets = none := by
  induction octets with
  | nil => rfl
  | cons b octets ih =>
    rw [hasChar_cons, Bool.or_eq_false_iff] at h
    have hb : b ≠ 0x25 := by
      rintro rfl
      exact absurd h.1 (by decide)
    rw [cutZone?, ih h.2, Option.map_none]
    exact fun _ heq => absurd heq hb

section

variable {host port : Octets} (hport : ∀ b ∈ port, isDigit b = true)

include hport

theorem hasChar_port {c : Char} (hc : c ∈ ['[', ']', ':']) : hasChar c port = false := by
  refine hasChar_eq_false_iff.2 fun b hb => ?_
  have hdigit := hport b hb
  simp only [isDigit, UInt8.le_iff_toNat_le, Bool.and_eq_true, decide_eq_true_eq, UInt8.reduceToNat] at hdigit
  simp only [mem_cons, not_mem_nil, or_false] at hc
  rcases hc with rfl | rfl | rfl <;> simp [isChar] <;> omega

theorem plain_port : ∀ b ∈ 0x3a :: port, Component.host.escapes b = false := by
  refine forall_mem_cons.2 ⟨by decide, fun b hb => ?_⟩
  simp [Component.escapes, hport b hb]

theorem isServer_name (hne : host ≠ []) (h : ∀ b ∈ host, (isLetter b || isDigit b || isOneOf ".-" b) = true) :
    IsServer (joinHostPort host port) host port := by
  have hdigits : port.all isDigit = true := all_eq_true.2 hport
  have hplain : ∀ b ∈ host, Component.host.escapes b = false ∧ isChar ':' b = false ∧ isChar '[' b = false := by
    intro b hb
    rcases Bool.or_eq_true_iff.1 (h b hb) with hclass | hother
    · have hrange := hclass
      simp [isLetter, isDigit, UInt8.le_iff_toNat_le] at hrange
      refine ⟨?_, by simp [isChar]; omega, by simp [isChar]; omega⟩
      unfold Component.escapes
      rw [if_pos hclass]
    · have hb : b = 0x2e ∨ b = 0x2d := by simpa [isOneOf, isChar, ← UInt8.toNat_inj] using hother
      rcases hb with rfl | rfl <;> decide
  have hcolon : hasChar ':' host = false := hasChar_eq_false_iff.2 fun b hb => (hplain b hb).2.1
  have hbracket : hasChar '[' host = false := hasChar_eq_false_iff.2 fun b hb => (hplain b hb).2.2
  have htext : joinHostPort host port = host ++ 0x3a :: port := by
    rw [joinHostPort, hcolon]
    rfl
  have hall : ∀ b ∈ host ++ 0x3a :: port, Component.host.escapes b = false :=
    forall_mem_append.2 ⟨fun b hb => (hplain b hb).1, plain_port hport⟩
  have hcut : cutLast? ':' (host ++ 0x3a :: port) = some (host, port) :=
    cutLast?_append_cons host (by decide) (hasChar_port hport (by simp))
  have hnone : cutLast? '[' (host ++ 0x3a :: port) = none := by
    rw [cutLast?_eq_none_iff, hasChar_append, hasChar_cons, hbracket, hasChar_port hport (by simp)]
    decide
  rw [htext]
  refine ⟨hall, ?_, ?_⟩
  · rw [Url.readHost?, hnone]
    dsimp only
    rw [hcut]
    dsimp only
    rw [if_pos hdigits]
    exact Component.unescape?_of_plain (by decide) hall
  · rw [Url.splitHost, hcut]
    dsimp only
    rw [if_pos hdigits]
    cases host with
    | nil => exact absurd rfl hne
    | cons b host =>
      rw [stripBrackets, (hplain b mem_cons_self).2.2]
      rfl

/-- An address stands between brackets. -/
theorem isServer_address (h : IsIPv6Text host) : IsServer (joinHostPort host port) host port := by
  have hdigits : port.all isDigit = true := all_eq_true.2 hport
  have htext : joinHostPort host port = 0x5b :: (host ++ 0x5d :: 0x3a :: port) := by
    rw [joinHostPort, h.hasChar_colon, if_pos rfl]
    show ascii '[' :: host ++ [0x5d, 0x3a] ++ port = _
    simp
    rfl
  have hinner : ∀ b ∈ host ++ 0x5d :: 0x3a :: port, Component.host.escapes b = false := by
    refine forall_mem_append.2 ⟨fun b => h.escapes, forall_mem_cons.2 ⟨by decide, plain_port hport⟩⟩
  have hopen : cutLast? '[' (0x5b :: (host ++ 0x5d :: 0x3a :: port)) = some ([], host ++ 0x5d :: 0x3a :: port) := by
    refine cutLast?_append_cons [] (by decide) ?_
    simp [h.hasChar (c := '['), hasChar_port hport (c := '[')]
    decide
  have hclose : cutLast? ']' (host ++ 0x5d :: 0x3a :: port) = some (host, 0x3a :: port) := by
    refine cutLast?_append_cons host (by decide) ?_
    rw [hasChar_cons, hasChar_port hport (by simp)]
    decide
  have hcolon : cutLast? ':' (0x5b :: (host ++ 0x5d :: 0x3a :: port)) = some (0x5b :: (host ++ [0x5d]), port) := by
    have hcut := cutLast?_append_cons (c := ':') (0x5b :: (host ++ [0x5d])) (b := 0x3a) (by decide)
      (hasChar_port hport (by simp))
    simpa using hcut
  have haddress : readBracketed? host = some host := by
    have hpercent : hasChar '%' host = false := h.hasChar (by simp)
    have hipv6 : isIPv6 host = true := by
      rw [isIPv6, cutAt?_eq_none_iff.2 hpercent]
      exact isPlainIPv6_of_isIPv6Text h
    have hread : Component.host.unescape? host = some host :=
      Component.unescape?_of_plain (by decide) fun b => h.escapes
    rw [readBracketed?, cutZone?_eq_none hpercent]
    simp [hread, hipv6]
  have hreadPort : Component.host.unescape? (0x3a :: port) = some (0x3a :: port) :=
    Component.unescape?_of_plain (by decide) (plain_port hport)
  have hoptional : isOptionalPort (0x3a :: port) = true := by
    rw [isOptionalPort, hdigits]
    decide
  rw [htext]
  refine ⟨forall_mem_cons.2 ⟨by decide, hinner⟩, ?_, ?_⟩
  · rw [Url.readHost?, hopen]
    dsimp only
    rw [hclose]
    simp [hoptional, haddress, hreadPort]
    decide
  · rw [Url.splitHost, hcolon]
    dsimp only
    have hlast : (host ++ [0x5d]).getLast? = some 0x5d := by simp
    rw [if_pos hdigits, stripBrackets, hlast, if_pos (by decide), dropLast_concat]

end

/-- **Hosts with a port are read as they were written**, and cut apart again. -/
theorem IsHost.isServer {host port : Octets} (h : IsHost host) (hport : ∀ b ∈ port, isDigit b = true) :
    IsServer (joinHostPort host port) host port := by
  cases h with
  | name hne h => exact isServer_name hport hne h
  | address h => exact isServer_address hport h

end ServiceCompiler.Url

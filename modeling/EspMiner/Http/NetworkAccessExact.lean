import EspMiner.Http.NetworkAccess

/-!
# Who is allowed to call

What the three passes over an origin accept, said of the text as a whole; and exactly for
which requests this is what is meant.  The second and the third pass look at the buffer,
which holds the first 127 bytes of a header, and no longer at the peer.
-/

namespace EspMiner

open Library

/-! ## Addresses -/

theorem ipInPrivateRange_htonl {address : BitVec 32} :
    ipInPrivateRange (htonl address) = true ↔ PrivateAddress address := by
  unfold ipInPrivateRange PrivateAddress
  rw [htonl_htonl, inSubnet_iff (by decide), inSubnet_iff (by decide), inSubnet_iff (by decide),
    show (ofOctets 10 0 0 0).toNat = 0x0A000000 from rfl,
    show (ofOctets 172 16 0 0).toNat = 0xAC100000 from rfl,
    show (ofOctets 192 168 0 0).toNat = 0xC0A80000 from rfl]
  simp only [Nat.reduceSub, Nat.reducePow]
  split
  · rw [eq_self, true_iff]
    omega
  split
  · rw [eq_self, true_iff]
    omega
  split
  · rw [eq_self, true_iff]
    omega
  · rw [Bool.false_eq_true, false_iff]
    omega

/-- The origin has a private address behind `http://`, up to a slash. -/
def ShowsAddress (origin : List U8) : Prop :=
  ∃ start host, FollowsFirst httpPrefix origin start ∧ CutAt 0x2f#8 start host ∧ PrivateQuad host

theorem not_ipInPrivateRange_zero : ipInPrivateRange 0 = false := by decide

theorem extractOriginIpAddr_private {origin : List U8} (hlength : origin.length < 128) :
    ipInPrivateRange (extractOriginIpAddr origin) = true ↔ ShowsAddress origin := by
  unfold extractOriginIpAddr
  constructor
  · intro h
    split at h
    · rw [not_ipInPrivateRange_zero] at h
      cases h
    · next found hfound =>
      obtain ⟨start, rfl, hfirst⟩ := strstr_eq_some_iff.mp hfound
      dsimp only at h
      rw [List.drop_left] at h
      refine ⟨start, _, hfirst, takeWhile_eq_iff.mp rfl, ?_⟩
      split at h
      · cases haddress : inetPton (start.takeWhile (· != 0x2f#8)) with
        | none =>
          rw [haddress, Option.getD_none, not_ipInPrivateRange_zero] at h
          cases h
        | some address =>
          rw [haddress, Option.getD_some, ← htonl_htonl address, ipInPrivateRange_htonl] at h
          exact ⟨_, inetPton_eq_some_iff.mp haddress, h⟩
      · rw [not_ipInPrivateRange_zero] at h
        cases h
  · rintro ⟨start, host, hfirst, hcut, address, hquad, hprivate⟩
    have hshort : host.length < 128 := by
      have := hfirst.length_le
      have := hcut.length_le
      omega
    have hread : inetPton host = some (htonl address) := by
      rw [inetPton_eq_some_iff, htonl_htonl]
      exact hquad
    rw [strstr_eq_some_iff.mpr ⟨start, rfl, hfirst⟩]
    dsimp only
    rw [List.drop_left, takeWhile_eq_iff.mpr hcut, if_pos hshort, hread, Option.getD_some,
      ipInPrivateRange_htonl]
    exact hprivate

/-! ## Names -/

theorem localSuffixes_lower {suffix : List U8} (h : suffix ∈ localSuffixes) :
    suffix.map lowerByte = suffix := by
  have hall : ∀ suffix ∈ localSuffixes, suffix.map lowerByte = suffix := by decide
  exact hall suffix h

theorem isLocalNetworkHostname_iff {host : List U8} :
    isLocalNetworkHostname host = true ↔ LocalHostname host := by
  unfold isLocalNetworkHostname LocalHostname
  by_cases hnil : host = []
  · simp [hnil]
  by_cases hdot : 0x2e#8 ∈ host
  · have hcontains : host.contains 0x2e#8 = true := List.contains_iff_mem.mpr hdot
    rw [if_neg hnil, if_neg (by rw [hcontains]; exact Bool.noConfusion), List.any_eq_true]
    constructor
    · rintro ⟨suffix, hmem, h⟩
      rw [Bool.and_eq_true, decide_eq_true_eq, strcasecmpEqual, beq_iff_eq] at h
      obtain ⟨hlength, hsame⟩ := h
      refine ⟨hnil, .inr ⟨host.take (host.length - suffix.length),
        host.drop (host.length - suffix.length), ?_, (List.take_append_drop ..).symm, ?_⟩⟩
      · intro htake
        have hzero := congrArg List.length htake
        rw [List.length_take, List.length_nil] at hzero
        omega
      · rw [hsame, localSuffixes_lower hmem]
        exact hmem
    · rintro ⟨-, hlabel | ⟨label, suffix, hlabel, rfl, hmem⟩⟩
      · exact absurd hdot hlabel
      · have hpos := List.length_pos_of_ne_nil hlabel
        refine ⟨_, hmem, ?_⟩
        rw [Bool.and_eq_true, decide_eq_true_eq, strcasecmpEqual, beq_iff_eq, List.length_map,
          List.length_append, Nat.add_sub_cancel, List.drop_left, localSuffixes_lower hmem]
        exact ⟨by omega, rfl⟩
  · have hcontains : host.contains 0x2e#8 = false := by
      rw [Bool.eq_false_iff]
      exact mt List.contains_iff_mem.mp hdot
    rw [if_neg hnil, if_pos hcontains]
    exact ⟨fun _ => ⟨hnil, .inl hdot⟩, fun _ => rfl⟩

/-- The host is followed by a port, or there is no port and it ends with the text or before a
slash. -/
def HostOf (start host : List U8) : Prop :=
  (0x3a#8 ∈ start ∧ CutAt 0x3a#8 start host) ∨ (0x3a#8 ∉ start ∧ CutAt 0x2f#8 start host)

theorem originHost_eq_iff {start host : List U8} : originHost start = host ↔ HostOf start host := by
  unfold originHost HostOf
  by_cases hcolon : 0x3a#8 ∈ start
  · rw [if_pos (List.contains_iff_mem.mpr hcolon), takeWhile_eq_iff]
    simp [hcolon]
  · rw [if_neg (mt List.contains_iff_mem.mp hcolon), takeWhile_eq_iff]
    simp [hcolon]

theorem HostOf.length_le {start host : List U8} (h : HostOf start host) :
    host.length ≤ start.length := by
  rcases h with ⟨-, h⟩ | ⟨-, h⟩
  · exact h.length_le
  · exact h.length_le

/-- The origin has a local name behind `http://`. -/
def ShowsLocalName (origin : List U8) : Prop :=
  ∃ start host, FollowsFirst httpPrefix origin start ∧ HostOf start host ∧ LocalHostname host

theorem originIsLocalHostname_iff {origin : List U8} (hlength : origin.length < 128) :
    originIsLocalHostname origin = true ↔ ShowsLocalName origin := by
  unfold originIsLocalHostname
  constructor
  · intro h
    split at h
    · cases h
    · next found hfound =>
      obtain ⟨start, rfl, hfirst⟩ := strstr_eq_some_iff.mp hfound
      dsimp only at h
      rw [List.drop_left] at h
      split at h
      · exact ⟨start, _, hfirst, originHost_eq_iff.mp rfl, isLocalNetworkHostname_iff.mp h⟩
      · cases h
  · rintro ⟨start, host, hfirst, hhost, hlocal⟩
    have hshort : 0 < host.length ∧ host.length < 128 := by
      have := hfirst.length_le
      have := hhost.length_le
      exact ⟨List.length_pos_of_ne_nil hlocal.1, by omega⟩
    rw [strstr_eq_some_iff.mpr ⟨start, rfl, hfirst⟩]
    dsimp only
    rw [List.drop_left, originHost_eq_iff.mpr hhost, if_pos hshort]
    exact isLocalNetworkHostname_iff.mpr hlocal

/-- The origin starts with the hostname of the device, and ends there or goes on with a colon. -/
def ShowsHostname (hostname origin : List U8) : Prop :=
  ∃ host rest, (host = hostname ∨ host = hostname ++ cText ".local") ∧
    origin = httpPrefix ++ (host ++ rest) ∧ (rest = [] ∨ ∃ more, rest = 0x3a#8 :: more)

theorem originMatchesHostname_iff {hostname origin : List U8} (hlength : origin.length < 128) :
    originMatchesHostname hostname origin = true ↔ ShowsHostname hostname origin := by
  unfold originMatchesHostname
  rw [List.any_eq_true]
  constructor
  · rintro ⟨suffix, hmem, h⟩
    simp only [Bool.and_eq_true, Bool.or_eq_true, beq_iff_eq, List.isPrefixOf_iff_prefix] at h
    obtain ⟨⟨rest, hrest⟩, hend⟩ := h
    -- a pattern that is cut is longer than the buffer
    have hwhole : (httpPrefix ++ hostname ++ suffix).length ≤ 255 := by
      have hle := congrArg List.length hrest
      rw [List.length_append, List.length_take] at hle
      omega
    rw [List.take_of_length_le hwhole] at hrest hend
    refine ⟨hostname ++ suffix, rest, ?_, ?_, ?_⟩
    · rw [hostnamePatterns, List.mem_cons, List.mem_singleton] at hmem
      rcases hmem with rfl | rfl
      · exact .inr rfl
      · exact .inl (List.append_nil _)
    · rw [← hrest, List.append_assoc, List.append_assoc, List.append_assoc]
    · rw [← hrest] at hend
      cases rest with
      | nil => exact .inl rfl
      | cons first more =>
        rcases hend with hend | hend
        · rw [List.length_append, List.length_cons] at hend
          omega
        · rw [List.getElem?_append_right le_rfl, Nat.sub_self] at hend
          obtain rfl := Option.some.inj hend
          exact .inr ⟨more, rfl⟩
  · rintro ⟨host, rest, hhost, horigin, hrest⟩
    obtain ⟨suffix, hmem, rfl⟩ : ∃ suffix ∈ hostnamePatterns, host = hostname ++ suffix := by
      rcases hhost with rfl | rfl
      · exact ⟨[], by decide, (List.append_nil _).symm⟩
      · exact ⟨_, List.mem_cons_self, rfl⟩
    have hwhole : (httpPrefix ++ hostname ++ suffix).length ≤ 255 := by
      rw [horigin] at hlength
      simp only [List.length_append] at hlength ⊢
      omega
    have hsplit : origin = httpPrefix ++ hostname ++ suffix ++ rest := by
      rw [horigin, List.append_assoc, List.append_assoc, List.append_assoc]
    refine ⟨suffix, hmem, ?_⟩
    simp only [Bool.and_eq_true, Bool.or_eq_true, beq_iff_eq, List.isPrefixOf_iff_prefix]
    rw [List.take_of_length_le hwhole, hsplit]
    refine ⟨⟨rest, rfl⟩, ?_⟩
    rcases hrest with rfl | ⟨more, rfl⟩
    · exact .inl (by rw [List.append_nil])
    · right
      rw [List.getElem?_append_right le_rfl, Nat.sub_self]
      rfl

/-! ## What is accepted -/

/-- The origin has a local name, or the name of the device. -/
def ShowsName (hostname origin : List U8) : Prop :=
  ShowsLocalName origin ∨ ShowsHostname hostname origin

/-- What the buffer has of a header -/
def shown (value : Text) : List U8 := value.val.take 127

/-- The own network as the first pass knows it: the last 32 bits of the peer -/
def PrivatePeer (peer : BitVec 128) : Prop := PrivateAddress (peer.extractLsb' 0 32)

/-- The origin does not stand against the first pass: too long for the buffer, or a private
address. -/
def Unopposed (value : Text) : Prop := 128 ≤ value.val.length ∨ ShowsAddress value.val

/-- Nothing is shown by an empty header. -/
theorem not_showsName_nil {hostname : List U8} : ¬ ShowsName hostname [] := by
  rintro (⟨start, host, hfirst, -⟩ | ⟨host, rest, -, hnil, -⟩)
  · have := hfirst.length_le
    simp [httpPrefix, cText] at this
  · have := congrArg List.length hnil
    simp [httpPrefix, cText] at this

theorem originAllowed_some {value hostname : Text} :
    originAllowed (some value) hostname = true ↔ ShowsName hostname.val (shown value) := by
  have hshort : (shown value).length < 128 := by
    rw [shown, List.length_take]
    omega
  have hpasses : (originIsLocalHostname (shown value) ||
      originMatchesHostname hostname.val (shown value)) = true ↔
        ShowsName hostname.val (shown value) := by
    rw [Bool.or_eq_true, originIsLocalHostname_iff hshort, originMatchesHostname_iff hshort,
      ShowsName]
  unfold originAllowed httpdReqGetHdrValueStr
  dsimp only
  split
  · next hfit heq =>
    split at heq
    · next hfits =>
      cases heq
      rw [← hpasses, shown, List.take_of_length_le (Nat.le_of_lt_succ hfits)]
    · cases heq
  · next hfit heq =>
    split at heq
    · cases heq
    · cases heq
      exact hpasses
  · next heq =>
    split at heq
    · cases heq
    · cases heq

theorem ipInPrivateRange_ne_zero {address : U32} (h : ipInPrivateRange address = true) :
    address ≠ 0 := by
  rintro rfl
  rw [not_ipInPrivateRange_zero] at h
  cases h

/-- The first pass, where a header that does not fit counts as none -/
theorem firstPass_iff {peer : BitVec 128} {origin : Option Text} :
    (originIpAddr origin (htonl (peer.extractLsb' 0 32)) ≠ 0 ∧
      ipInPrivateRange (originIpAddr origin (htonl (peer.extractLsb' 0 32))) = true ∧
        ipInPrivateRange (htonl (peer.extractLsb' 0 32)) = true) ↔
      PrivatePeer peer ∧ ∀ value, origin = some value → Unopposed value := by
  have hpeer : (htonl (peer.extractLsb' 0 32) ≠ 0 ∧
      ipInPrivateRange (htonl (peer.extractLsb' 0 32)) = true ∧
        ipInPrivateRange (htonl (peer.extractLsb' 0 32)) = true) ↔ PrivatePeer peer := by
    rw [PrivatePeer, ← ipInPrivateRange_htonl]
    exact ⟨fun h => h.2.1, fun h => ⟨ipInPrivateRange_ne_zero h, h, h⟩⟩
  unfold originIpAddr httpdReqGetHdrValueStr
  cases origin with
  | none =>
    rw [hpeer]
    constructor
    · intro h
      refine ⟨h, ?_⟩
      rintro value hvalue
      cases hvalue
    · exact And.left
  | some value =>
    have hvalue : (∀ other, some value = some other → Unopposed other) ↔ Unopposed value := by
      simp
    rw [hvalue, Unopposed]
    dsimp only
    by_cases hfits : value.val.length < 128
    · rw [if_pos hfits, or_iff_right (Nat.not_le.mpr hfits), PrivatePeer,
        ← extractOriginIpAddr_private hfits, ← ipInPrivateRange_htonl]
      constructor
      · rintro ⟨-, hshows, hpeer⟩
        exact ⟨hpeer, hshows⟩
      · rintro ⟨hpeer, hshows⟩
        exact ⟨ipInPrivateRange_ne_zero hshows, hshows, hpeer⟩
    · rw [if_neg hfits]
      dsimp only
      rw [hpeer, and_iff_left (.inl (Nat.not_lt.mp hfits))]

/-- **What is accepted.**  The first pass, or a name that the origin shows -/
theorem isNetworkAllowed_iff {peer : BitVec 128} {origin : Option Text} {hostname : Text} :
    isNetworkAllowed ⟨false, some peer, origin, hostname⟩ = true ↔
      (PrivatePeer peer ∧ ∀ value, origin = some value → Unopposed value) ∨
        ∃ value, origin = some value ∧ ShowsName hostname.val (shown value) := by
  unfold isNetworkAllowed
  rw [if_neg Bool.false_ne_true]
  dsimp only
  by_cases hpass : PrivatePeer peer ∧ ∀ value, origin = some value → Unopposed value
  · rw [if_pos (firstPass_iff.mpr hpass)]
    exact iff_of_true rfl (.inl hpass)
  · rw [if_neg (mt firstPass_iff.mp hpass), or_iff_right hpass]
    cases origin with
    | none => simp [httpdReqGetHdrValueLen]
    | some value =>
      have hvalue : (∃ other, some value = some other ∧ ShowsName hostname.val (shown other)) ↔
          ShowsName hostname.val (shown value) := by
        simp
      rw [hvalue]
      by_cases hempty : 0 < httpdReqGetHdrValueLen (some value)
      · rw [if_pos hempty, originAllowed_some]
      · rw [if_neg hempty]
        have hnil : shown value = [] := by
          rw [httpdReqGetHdrValueLen, Nat.not_lt, Nat.le_zero, List.length_eq_zero_iff] at hempty
          rw [shown, hempty]
          rfl
        rw [hnil, Bool.false_eq_true, false_iff]
        exact not_showsName_nil

/-! ## What is meant -/

theorem localPeer_iff {peer : BitVec 128} :
    LocalPeer peer ↔ peer.extractLsb' 32 96 = 0xffff#96 ∧ PrivatePeer peer := by
  constructor
  · rintro ⟨address, ⟨hmap, rfl⟩, hprivate⟩
    exact ⟨hmap, hprivate⟩
  · rintro ⟨hmap, hprivate⟩
    exact ⟨_, ⟨hmap, rfl⟩, hprivate⟩

theorem PrivateQuad.not_mem {host : List U8} (h : PrivateQuad host) {byte : U8}
    (hdigit : isDigit byte = false) (hdot : byte ≠ 46#8) : byte ∉ host := by
  obtain ⟨address, hquad, -⟩ := h
  intro hmem
  rcases hquad.mem hmem with h | h
  · rw [hdigit] at h
    cases h
  · exact hdot h

/-- The origin is a private address with a port. -/
def PortedAddress (origin : List U8) : Prop :=
  ∃ host digits, PrivateQuad host ∧ PortPart (0x3a#8 :: digits) ∧
    origin = httpPrefix ++ (host ++ 0x3a#8 :: digits)

/-- What is meant is shown, a private address with a port apart. -/
theorem LocalOrigin.shows {hostname origin : List U8} (h : LocalOrigin hostname origin) :
    ShowsName hostname origin ∨ ShowsAddress origin ∨ PortedAddress origin := by
  obtain ⟨host, port, hhost, hport, rfl⟩ := h
  rcases hhost with hquad | ⟨hlocal, hcolon, hslash⟩ | hhost
  · rcases hport with rfl | ⟨digits, hne, hdigits, rfl⟩
    · exact .inr (.inl ⟨_, host, .of_front _, ⟨hquad.not_mem (by decide) (by decide), [], rfl,
        .inl rfl⟩, hquad⟩)
    · exact .inr (.inr ⟨host, digits, hquad, .inr ⟨digits, hne, hdigits, rfl⟩, rfl⟩)
  · refine .inl (.inl ⟨_, host, .of_front _, ?_, hlocal⟩)
    rcases hport with rfl | ⟨digits, hne, hdigits, rfl⟩
    · rw [List.append_nil]
      exact .inr ⟨hcolon, hslash, [], (List.append_nil _).symm, .inl rfl⟩
    · exact .inl ⟨List.mem_append_right _ List.mem_cons_self, hcolon, _, rfl, .inr ⟨digits, rfl⟩⟩
  · refine .inl (.inr ⟨host, port, hhost, rfl, ?_⟩)
    rcases hport with rfl | ⟨digits, hne, hdigits, rfl⟩
    · exact .inl rfl
    · exact .inr ⟨digits, rfl⟩

/-- With its port an address is not read. -/
theorem PortedAddress.not_showsAddress {origin : List U8} (h : PortedAddress origin) :
    ¬ ShowsAddress origin := by
  obtain ⟨host, digits, hquad, hport, rfl⟩ := h
  rintro ⟨start, shownHost, hfirst, ⟨hslash, rest, hstart, hrest⟩, hshown⟩
  obtain rfl := hfirst.unique (.of_front _)
  have hnot : (0x2f#8 : U8) ∉ host ++ 0x3a#8 :: digits := by
    rcases hport with hnil | ⟨others, hne, hdigits, heq⟩
    · cases hnil
    · obtain ⟨-, rfl⟩ := List.cons.inj heq
      simp only [List.mem_append, List.mem_cons, not_or]
      exact ⟨hquad.not_mem (by decide) (by decide), by decide,
        fun hmem => absurd (hdigits _ hmem) (by decide)⟩
  rcases hrest with rfl | ⟨more, rfl⟩
  · rw [List.append_nil] at hstart
    refine @PrivateQuad.not_mem _ hshown 0x3a#8 (by decide) (by decide) ?_
    rw [← hstart]
    exact List.mem_append_right _ List.mem_cons_self
  · refine hnot ?_
    rw [hstart]
    exact List.mem_append_right _ List.mem_cons_self

/-- The ways in which the decision goes another way than it is meant -/
inductive OriginGap (hostname : Text) (peer : BitVec 128) : Option Text → Prop where
  /-- A name is enough for a peer outside the own network. -/
  | foreignPeer (value : Text) (hname : ShowsName hostname.val (shown value))
      (hpeer : ¬ LocalPeer peer) : OriginGap hostname peer (some value)
  /-- A peer that is no IPv4 address ends like a private one. -/
  | unmappedPeer (origin : Option Text) (hpeer : PrivatePeer peer)
      (hmap : peer.extractLsb' 32 96 ≠ 0xffff#96)
      (horigin : ∀ value, origin = some value → Unopposed value) : OriginGap hostname peer origin
  /-- An origin of another form passes. -/
  | otherForm (value : Text) (hpeer : LocalPeer peer)
      (hpass : ShowsName hostname.val (shown value) ∨ Unopposed value)
      (hform : ¬ LocalOrigin hostname.val value.val) : OriginGap hostname peer (some value)
  /-- A private address with a port is not read. -/
  | portedAddress (value : Text) (hpeer : LocalPeer peer) (hfits : value.val.length < 128)
      (hported : PortedAddress value.val) (hname : ¬ ShowsName hostname.val value.val) :
      OriginGap hostname peer (some value)

theorem shown_eq {value : Text} (h : value.val.length < 128) : shown value = value.val :=
  List.take_of_length_le (Nat.le_of_lt_succ h)

theorem PortedAddress.localOrigin {hostname origin : List U8} (h : PortedAddress origin) :
    LocalOrigin hostname origin := by
  obtain ⟨host, digits, hquad, hport, horigin⟩ := h
  exact ⟨host, _, .inl hquad, hport, horigin⟩

/-- **Who may call the API.**  The decision is what is meant exactly outside these gaps. -/
theorem isNetworkAllowed_local_iff (peer : BitVec 128) (origin : Option Text) (hostname : Text) :
    (isNetworkAllowed ⟨false, some peer, origin, hostname⟩ = true ↔
      LocalCaller peer origin hostname) ↔ ¬ OriginGap hostname peer origin := by
  rw [isNetworkAllowed_iff]
  constructor
  · intro h hgap
    cases hgap with
    | foreignPeer value hname hpeer => exact hpeer (h.mp (.inr ⟨value, rfl, hname⟩)).1
    | unmappedPeer origin hpeer hmap horigin =>
      exact hmap (localPeer_iff.mp (h.mp (.inl ⟨hpeer, horigin⟩)).1).1
    | otherForm value hpeer hpass hform =>
      refine hform ((h.mp ?_).2 value rfl)
      rcases hpass with hname | hopen
      · exact .inr ⟨value, rfl, hname⟩
      · refine .inl ⟨(localPeer_iff.mp hpeer).2, ?_⟩
        rintro other hother
        obtain rfl := Option.some.inj hother
        exact hopen
    | portedAddress value hpeer hfits hported hname =>
      have hlocal : LocalCaller peer (some value) hostname := by
        refine ⟨hpeer, ?_⟩
        rintro other hother
        obtain rfl := Option.some.inj hother
        exact hported.localOrigin
      rcases h.mpr hlocal with ⟨-, hopen⟩ | ⟨other, hother, hshown⟩
      · rcases hopen value rfl with hlong | haddress
        · exact absurd hfits (Nat.not_lt.mpr hlong)
        · exact hported.not_showsAddress haddress
      · obtain rfl := Option.some.inj hother
        rw [shown_eq hfits] at hshown
        exact hname hshown
  · intro hgap
    constructor
    · intro haccepted
      have hpeer : LocalPeer peer := by
        by_contra hpeer
        rcases haccepted with ⟨hprivate, hopen⟩ | ⟨value, rfl, hname⟩
        · exact hgap (.unmappedPeer origin hprivate
            (fun hmap => hpeer (localPeer_iff.mpr ⟨hmap, hprivate⟩)) hopen)
        · exact hgap (.foreignPeer value hname hpeer)
      refine ⟨hpeer, ?_⟩
      rintro value rfl
      by_contra hform
      refine hgap (.otherForm value hpeer ?_ hform)
      rcases haccepted with ⟨-, hopen⟩ | ⟨other, hother, hname⟩
      · exact .inr (hopen value rfl)
      · obtain rfl := Option.some.inj hother
        exact .inl hname
    · rintro ⟨hpeer, hform⟩
      have hprivate := (localPeer_iff.mp hpeer).2
      cases origin with
      | none =>
        refine .inl ⟨hprivate, ?_⟩
        rintro value hvalue
        cases hvalue
      | some value =>
        have hopen : Unopposed value → (PrivatePeer peer ∧
            ∀ other, some value = some other → Unopposed other) := by
          intro hopen
          refine ⟨hprivate, ?_⟩
          rintro other hother
          obtain rfl := Option.some.inj hother
          exact hopen
        by_cases hfits : value.val.length < 128
        · rcases (hform value rfl).shows with hname | haddress | hported
          · exact .inr ⟨value, rfl, by rw [shown_eq hfits]; exact hname⟩
          · exact .inl (hopen (.inr haddress))
          · refine .inr ⟨value, rfl, ?_⟩
            rw [shown_eq hfits]
            by_contra hname
            exact hgap (.portedAddress value hpeer hfits hported hname)
        · exact .inl (hopen (.inl (Nat.not_lt.mp hfits)))

/-- A page of any host without a dot may call from the outside. -/
theorem foreign_page_allowed :
    ¬ (isNetworkAllowed ⟨false, some 0xffff08080808, some ⟨cText "http://foo", by decide⟩,
      ⟨cText "bitaxe", by decide⟩⟩ = true ↔
        LocalCaller 0xffff08080808 (some ⟨cText "http://foo", by decide⟩)
          ⟨cText "bitaxe", by decide⟩) := by
  intro h
  obtain ⟨⟨address, ⟨-, haddress⟩, hprivate⟩, -⟩ := h.mp (by decide)
  rw [← haddress] at hprivate
  exact absurd hprivate (by decide)

end EspMiner

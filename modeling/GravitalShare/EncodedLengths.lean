import GravitalShare.SocksDatagram
import GravitalShare.UdpGwFrame

/-! The length fields of the SOCKS5 addresses and of the frames of the UDP gateway. Both encoders
cut the length of a field down to the width of its prefix. -/
namespace GravitalShare

open Duplex Socks UdpGw

/-- A name that is too long for its prefix is read as a shorter one, and bytes are left. -/
theorem encodeAddress_long (replace : Bytes → String) {addr : AddrSpec} (h : ¬addr.Fits)
    (port : UInt16) :
    ∃ atyp b addr' port' rest, encodeAddress addr port = atyp :: (b ++ (u16ToBE port' ++ rest)) ∧
      OnWire replace atyp b addr' ∧ rest ≠ [] := by
  cases addr with
  | ipv4 ip => exact absurd trivial h
  | ipv6 ip => exact absurd trivial h
  | domain d =>
    have hlong : 255 < (asBytes d).length := Nat.not_le.mp h
    have hmod : (UInt8.ofNat (asBytes d).length).toNat = (asBytes d).length%256 :=
      UInt8.toNat_ofNat'
    obtain ⟨n, hn⟩ : ∃ n, (UInt8.ofNat (asBytes d).length).toNat = n := ⟨_, rfl⟩
    have hlen : (asBytes d ++ u16ToBE port).length = (asBytes d).length+2 := by
      rw [List.length_append, length_u16ToBE]
    have htake : ((asBytes d ++ u16ToBE port).take n).length = n :=
      List.length_take_of_le (by omega)
    obtain ⟨hi, lo, x, rest, hrest⟩ : ∃ hi lo x rest,
        (asBytes d ++ u16ToBE port).drop n = hi :: lo :: x :: rest := by
      have hdrop : 3 ≤ ((asBytes d ++ u16ToBE port).drop n).length := by
        rw [List.length_drop]
        omega
      match (asBytes d ++ u16ToBE port).drop n, hdrop with
      | hi :: lo :: x :: rest, _ => exact ⟨hi, lo, x, rest, rfl⟩
    refine ⟨0x03, _, _, u16FromBE hi lo, x :: rest, ?_, .domain (htake.trans hn.symm),
      List.cons_ne_nil _ _⟩
    rw [u16ToBE_u16FromBE, List.cons_append, List.cons_append, List.cons_append, List.nil_append,
      ← hrest, List.take_append_drop]
    rfl

theorem readRequest_exact_iff (replace : Bytes → String) (addr : AddrSpec) (port : UInt16) :
    Accepts (readRequest replace) ([Socks.VERSION, 0x01, 0x00] ++ encodeAddress addr port)
      ⟨.connect, addr, port⟩ [] ↔ addr.Fits := by
  constructor
  · rintro ⟨ys, hrun⟩
    by_contra hlong
    obtain ⟨atyp, b, addr', port', rest, henc, hwire, hne⟩ :=
      encodeAddress_long replace hlong port
    have hother := (talks_readRequest 0x00 port'
      (show Cmd.tryFrom 0x01 = .ok .connect from rfl) hwire).run_eq rest
    have hdata : [Socks.VERSION, 0x01, 0x00] ++ encodeAddress addr port =
        [Socks.VERSION, 0x01, 0x00, atyp] ++ (b ++ u16ToBE port') ++ rest := by
      rw [henc, List.append_assoc, List.append_assoc]
      rfl
    rw [hdata, hother] at hrun
    exact hne (congrArg (fun r => r.2.2) hrun)
  · intro hfits
    have htalk := (talks_readRequest_connect replace hfits port).accepts []
    rwa [List.append_nil] at htalk

theorem parseUdpDatagram_exact_iff (replace : Bytes → String) (addr : AddrSpec) (port : UInt16) :
    parseUdpDatagram replace ([0, 0, 0] ++ encodeAddress addr port) =
      .ok (.ok ⟨0, addr, port, ([0, 0, 0] ++ encodeAddress addr port).length⟩) ↔ addr.Fits := by
  rw [List.length_append]
  constructor
  · intro hrun
    by_contra hlong
    obtain ⟨atyp, b, addr', port', rest, henc, hwire, hne⟩ :=
      encodeAddress_long replace hlong port
    have hother := parseUdpDatagram_whole 0 0 0 hwire port' rest
    rw [← henc, hrun] at hother
    have hoff := congrArg UdpHeader.payloadOffset (Except.ok.inj (Except.ok.inj hother))
    simp only [henc, List.length_cons, List.length_nil, List.length_append, length_u16ToBE] at hoff
    exact hne (List.length_eq_zero_iff.mp (by omega))
  · intro hfits
    have henc := parseUdpDatagram_encoded replace 0 0 0 hfits port []
    rwa [List.append_nil] at henc

/-- What has been encoded is read back as it was, to its last byte, exactly if the field behind the
length prefix is not longer than the prefix can tell; of a frame, moreover, the flags have to be
defined ones and the address has to be one without flow information and scope. -/
theorem encoders_exact_iff (replace : Bytes → String) (addr : AddrSpec) (port : UInt16)
    (f : UdpGwFrame) :
    (Accepts (readRequest replace) ([Socks.VERSION, 0x01, 0x00] ++ encodeAddress addr port)
      ⟨.connect, addr, port⟩ [] ↔ addr.Fits) ∧
    (parseUdpDatagram replace ([0, 0, 0] ++ encodeAddress addr port) =
      .ok (.ok ⟨0, addr, port, ([0, 0, 0] ++ encodeAddress addr port).length⟩) ↔ addr.Fits) ∧
    (UdpGwFrame.decode f.encode = .ok (.ok f) ↔ f.Sendable) := by
  refine ⟨readRequest_exact_iff replace addr port, parseUdpDatagram_exact_iff replace addr port, ?_⟩
  constructor
  · intro hdecode
    obtain ⟨-, -, -, -, hsend⟩ := UdpGwFrame.layout_of_decode hdecode
    exact hsend
  · intro hsend
    have hfront := UdpGwFrame.reads_encode.front f hsend []
    rw [List.append_nil] at hfront
    exact UdpGwFrame.frameAt_eq_some.mp hfront

theorem asBytes_replicate (n : ℕ) :
    asBytes (String.ofList (List.replicate n 'a')) = List.replicate n 97 := by
  have ha : String.utf8EncodeChar 'a' = [97] := by decide
  rw [asBytes, String.toByteArray_ofList, List.utf8Encode, List.toList_data_toByteArray,
    List.flatMap_replicate, ha, List.flatten_replicate_singleton]

/-- A name of 256 letters is read as the empty name on the port that its first letters make, and a
frame with 65536 bytes as an empty one. -/
theorem long_fields_misread :
    Accepts (readRequest fun _ => "") ([Socks.VERSION, 0x01, 0x00] ++
      encodeAddress (.domain (String.ofList (List.replicate 256 'a'))) 443)
      ⟨.connect, .domain "", 24929⟩ (List.replicate 254 97 ++ [1, 187]) ∧
    UdpGwFrame.decode (UdpGwFrame.encode ⟨1, .empty, .v4 ⟨8, 8, 8, 8⟩ 53, List.replicate 65536 0⟩) =
      .ok (.ok ⟨1, .empty, .v4 ⟨8, 8, 8, 8⟩ 53, []⟩) := by
  constructor
  · have henc : encodeAddress (.domain (String.ofList (List.replicate 256 'a'))) 443 =
        encodeAddress (.domain "") 24929 ++ (List.replicate 254 97 ++ [1, 187]) := by
      rw [encodeAddress, asBytes_replicate, List.length_replicate]
      rfl
    have hfits : (AddrSpec.domain "").Fits := Nat.zero_le _
    have htalk := talks_readRequest_connect (fun _ => "") hfits 24929
    rw [henc]
    exact htalk.accepts (List.replicate 254 97 ++ [1, 187])
  · have hsend : UdpGwFrame.Sendable ⟨1, .empty, .v4 ⟨8, 8, 8, 8⟩ 53, []⟩ :=
      ⟨by decide, rfl, fun _ _ _ _ h => by cases h⟩
    have hfront := UdpGwFrame.reads_encode.front _ hsend (List.replicate 65536 0)
    have henc : UdpGwFrame.encode ⟨1, .empty, .v4 ⟨8, 8, 8, 8⟩ 53, List.replicate 65536 0⟩ =
        UdpGwFrame.encode ⟨1, .empty, .v4 ⟨8, 8, 8, 8⟩ 53, []⟩ ++ List.replicate 65536 0 := by
      rw [UdpGwFrame.encode, List.length_replicate]
      rfl
    rw [henc]
    exact UdpGwFrame.frameAt_eq_some.mp hfront

end GravitalShare

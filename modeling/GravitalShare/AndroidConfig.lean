import GravitalShare.AndroidNative
import GravitalShare.JsonReader
import GravitalShare.KotlinText

/-! The address of the proxy on its way from a scanned code to the session: it is put into a JSON
text as it is. -/
namespace GravitalShare.Android

open Engine.Config JsonText

section Text

/-- The text between the quotes in `SessionManager.startClient`. -/
def configTemplate (proxyAddr : String) (mtu : Int32) (dnsServer : String) : String :=
  String.join
    ["\n",
     "                \x7b\n",
     "                  \"mode\": \"Client\",\n",
     "                  \"proxy_addr\": \"", proxyAddr, "\",\n",
     "                  \"mtu\": ", toString mtu.toInt, ",\n",
     "                  \"dns_server\": \"", dnsServer, "\"\n",
     "                \x7d\n",
     "            "]

def configJson (proxyAddr : String) (mtu : Int32) (dnsServer : String) : List Char :=
  KotlinText.trimIndent (configTemplate proxyAddr mtu dnsServer).toList

/-- `HomeViewModel.connectFromQr`: the address it goes on with, if it accepts the text. -/
def connectFromQr (scanned : String) : Option String := do
  let lastColon ← KotlinText.lastIndexOf ':' scanned.toList
  let port ← KotlinText.toInt (scanned.toList.drop (lastColon+1))
  return String.ofList (scanned.toList.take lastColon) ++ ":" ++ toString port

end Text

section Plain

open KotlinText (Unbroken lines_append lines_insert)

variable {read : List Char → Option Value} {p d : String}

theorem unbroken_of_plain {s : List Char} (h : ∀ c ∈ s, IsPlain c) : Unbroken s := by
  intro c hc
  have hplain := h c hc
  refine ⟨?_, ?_⟩ <;> (rintro rfl; exact absurd hplain (by decide))

theorem unbroken_toString (z : ℤ) : Unbroken (toString z).toList := by
  have hdigits : Unbroken (Nat.toDigits 10 z.natAbs) := by
    intro c hc
    have hdigit := (digit_of_mem_toDigits hc).1
    refine ⟨?_, ?_⟩ <;> (rintro rfl; exact absurd hdigit (by decide))
  rw [toList_toString_int]
  split_ifs
  · exact List.forall_mem_cons.mpr ⟨by decide, hdigits⟩
  · exact hdigits

/-- The lines of the text without their indentation. -/
def configLines (p : String) (mtu : Int32) (d : String) : List (List Char) :=
  ["\x7b".toList,
   "  \"mode\": \"Client\",".toList,
   "  \"proxy_addr\": \"".toList ++ (p.toList ++ "\",".toList),
   "  \"mtu\": ".toList ++ ((toString mtu.toInt).toList ++ ",".toList),
   "  \"dns_server\": \"".toList ++ (d.toList ++ "\"".toList),
   "\x7d".toList]

def configIndent : List Char := List.replicate 16 ' '

theorem lines_configTemplate (hp : ∀ c ∈ p.toList, IsPlain c) (mtu : Int32)
    (hd : ∀ c ∈ d.toList, IsPlain c) : KotlinText.lines (configTemplate p mtu d).toList =
      [] :: ((configLines p mtu d).map (configIndent ++ ·) ++ [List.replicate 12 ' ']) := by
  have hnone : Unbroken [] := by decide
  have hbrace : Unbroken (configIndent ++ "\x7b".toList) := by decide
  have hmode : Unbroken (configIndent ++ "  \"mode\": \"Client\",".toList) := by decide
  have hproxy : Unbroken (configIndent ++ "  \"proxy_addr\": \"".toList) := by decide
  have hmtu : Unbroken (configIndent ++ "  \"mtu\": ".toList) := by decide
  have hdns : Unbroken (configIndent ++ "  \"dns_server\": \"".toList) := by decide
  have hbrace' : Unbroken (configIndent ++ "\x7d".toList) := by decide
  have htext : (configTemplate p mtu d).toList = [] ++ '\n' ::
      ((configIndent ++ "\x7b".toList) ++ '\n' ::
      ((configIndent ++ "  \"mode\": \"Client\",".toList) ++ '\n' ::
      ((configIndent ++ "  \"proxy_addr\": \"".toList) ++ (p.toList ++ ("\",".toList ++ '\n' ::
      ((configIndent ++ "  \"mtu\": ".toList) ++
        ((toString mtu.toInt).toList ++ (",".toList ++ '\n' ::
      ((configIndent ++ "  \"dns_server\": \"".toList) ++ (d.toList ++ ("\"".toList ++ '\n' ::
      ((configIndent ++ "\x7d".toList) ++ '\n' :: List.replicate 12 ' ')))))))))))) := by
    rw [configTemplate, String.toList_join]
    rfl
  have hlast : KotlinText.lines (List.replicate 12 ' ') = [List.replicate 12 ' '] := by decide
  rw [htext, lines_append hnone, lines_append hbrace, lines_append hmode,
    lines_insert hproxy (unbroken_of_plain hp) (by decide),
    lines_insert hmtu (unbroken_toString _) (by decide),
    lines_insert hdns (unbroken_of_plain hd) (by decide), lines_append hbrace', hlast]
  rfl

def modeMember : Member where
  name := "mode".toList
  scalar := .str "Client".toList
  name_plain := isPlain_of_all (by decide)
  scalar_plain := isPlain_of_all (by decide)

def proxyMember (p : String) (hp : ∀ c ∈ p.toList, IsPlain c) : Member where
  name := "proxy_addr".toList
  scalar := .str p.toList
  name_plain := isPlain_of_all (by decide)
  scalar_plain := hp

def mtuMember (mtu : Int32) : Member where
  name := "mtu".toList
  scalar := .int mtu.toInt
  name_plain := isPlain_of_all (by decide)
  scalar_plain := by
    have hlow := mtu.le_toInt
    have hhigh := mtu.toInt_lt
    constructor <;> omega

def dnsMember (d : String) (hd : ∀ c ∈ d.toList, IsPlain c) : Member where
  name := "dns_server".toList
  scalar := .str d.toList
  name_plain := isPlain_of_all (by decide)
  scalar_plain := hd

/-- Nothing but the indentation is lost. -/
theorem configJson_eq (hp : ∀ c ∈ p.toList, IsPlain c) (mtu : Int32)
    (hd : ∀ c ∈ d.toList, IsPlain c) : configJson p mtu d =
      '\x7b' :: (commaLines [' ', ' '] [modeMember, proxyMember p hp, mtuMember mtu] ++
        lastLines [' ', ' '] [] (dnsMember d hd)) := by
  have hls : ∀ l ∈ configLines p mtu d, KotlinText.isBlank l = false := by
    simp only [configLines, List.forall_mem_cons]
    exact ⟨rfl, rfl, rfl, rfl, rfl, rfl, fun _ h => absurd h List.not_mem_nil⟩
  have hassoc (a b c s : List Char) : (a ++ (b ++ c)) ++ s = a ++ (b ++ (c ++ s)) := by
    rw [List.append_assoc, List.append_assoc]
  have hjoin : ['\n'].intercalate (configLines p mtu d) = "\x7b".toList ++ '\n' ::
      ("  \"mode\": \"Client\",".toList ++ '\n' ::
      (("  \"proxy_addr\": \"".toList ++ (p.toList ++ "\",".toList)) ++ '\n' ::
      (("  \"mtu\": ".toList ++ ((toString mtu.toInt).toList ++ ",".toList)) ++ '\n' ::
      (("  \"dns_server\": \"".toList ++ (d.toList ++ "\"".toList)) ++ '\n' ::
      "\x7d".toList)))) := rfl
  -- the lines of the three texts
  have hmode (rest : List Char) : modeMember.scalar.text ++ rest =
      '"' :: ("Client".toList ++ '"' :: rest) := text_str_append _ _
  have hproxy (rest : List Char) : (proxyMember p hp).scalar.text ++ rest =
      '"' :: (p.toList ++ '"' :: rest) := text_str_append _ _
  have hdns (rest : List Char) : (dnsMember d hd).scalar.text ++ rest =
      '"' :: (d.toList ++ '"' :: rest) := text_str_append _ _
  rw [configJson, KotlinText.trimIndent_eq (lines_configTemplate hp mtu hd) (by decide) (by decide)
    hls ⟨_, List.mem_cons_self, by decide⟩, hjoin, hassoc, hassoc, hassoc, commaLines_cons_append,
    commaLines_cons_append, commaLines_cons_append, lastLines_eq, hmode, hproxy, hdns]
  rfl

/-- The fields of a text that stays in its quotes are those it was made of. -/
theorem fromStr_configJson (hread : IsReader read) (hp : ∀ c ∈ p.toList, IsPlain c)
    (mtu : Int32) (hd : ∀ c ∈ d.toList, IsPlain c) :
    EngineConfig.fromStr read (configJson p mtu d) =
      (NetParse.socketAddr p.toList).bind fun proxyAddr =>
        (readU16 (.int mtu.toInt)).bind fun mtu =>
          (NetParse.ipAddr d.toList).map fun dnsServer =>
            .client ⟨proxyAddr, mtu, dnsServer, true⟩ := by
  let content := Content.map [("mode".toList, .str "Client".toList),
    ("proxy_addr".toList, .str p.toList), ("mtu".toList, .int mtu.toInt),
    ("dns_server".toList, .str d.toList)]
  have hmode : field "mode" 0 (readText some) none content = some "Client".toList := rfl
  have hproxy : field "proxy_addr" 0 (readText NetParse.socketAddr) none content =
      NetParse.socketAddr p.toList := rfl
  have hmtu : field "mtu" 1 readU16 (some DEFAULT_MTU) content = readU16 (.int mtu.toInt) := rfl
  have hdns : field "dns_server" 2 (readText NetParse.ipAddr) (some (.v4 DEFAULT_DNS)) content =
      NetParse.ipAddr d.toList := rfl
  have hudp : field "udp_associate_enabled" 3 readBool (some true) content = some true := rfl
  have hclient : ClientConfig.deserialize content =
      (NetParse.socketAddr p.toList).bind fun proxyAddr =>
        (readU16 (.int mtu.toInt)).bind fun mtu =>
          (NetParse.ipAddr d.toList).bind fun dnsServer =>
            some ⟨proxyAddr, mtu, dnsServer, true⟩ := by
    rw [ClientConfig.deserialize, hproxy, hmtu, hdns, hudp]
    rfl
  have hvariant : EngineConfig.variant "Client".toList content =
      (ClientConfig.deserialize content).map .client := if_pos rfl
  have hspaces : Spaces [' ', ' '] ∧ Spaces [] :=
    ⟨List.all_eq_true.mp rfl, fun c hc => absurd hc List.not_mem_nil⟩
  have hobject : read (configJson p mtu d) = some (.obj
      [("mode".toList, .str "Client".toList), ("proxy_addr".toList, .str p.toList),
        ("mtu".toList, .int mtu.toInt), ("dns_server".toList, .str d.toList)]) := by
    rw [configJson_eq hp mtu hd]
    exact hread.whole _ _ _ _ hspaces.1 hspaces.2
  rw [EngineConfig.fromStr, hobject, Option.bind_some, EngineConfig.deserialize, hmode]
  refine hvariant.trans ?_
  rw [hclient]
  cases NetParse.socketAddr p.toList with
  | none => rfl
  | some a =>
    cases readU16 (.int mtu.toInt) with
    | none => rfl
    | some m => cases NetParse.ipAddr d.toList <;> rfl

/-- A text that stays in its quotes makes a valid configuration if each of its fields is valid. -/
theorem fromStr_configJson_iff (hread : IsReader read) (hp : ∀ c ∈ p.toList, IsPlain c)
    (mtu : Int32) (hd : ∀ c ∈ d.toList, IsPlain c) (a : SocketAddr) :
    (∃ c, EngineConfig.fromStr read (configJson p mtu d) = some (.client c) ∧ c.proxyAddr = a) ↔
      NetParse.socketAddr p.toList = some a ∧ (0 ≤ mtu.toInt ∧ mtu.toInt < 2^16) ∧
        (NetParse.ipAddr d.toList).isSome = true := by
  have hmtu : (readU16 (.int mtu.toInt)).isSome = true ↔ 0 ≤ mtu.toInt ∧ mtu.toInt < 2^16 := by
    rw [readU16, Option.isSome_map, readUnsigned]
    split_ifs with h
    · exact iff_of_true rfl h
    · exact iff_of_false Bool.false_ne_true h
  rw [fromStr_configJson hread hp mtu hd, ← hmtu]
  cases NetParse.socketAddr p.toList with
  | none => simp
  | some a' =>
    cases readU16 (.int mtu.toInt) with
    | none => simp
    | some m => cases NetParse.ipAddr d.toList <;> simp

end Plain

section Start

variable (read : List Char → Option Value) (engine : Option Core) (tunFd : ℤ) (proxyAddr : String)
  (mtu : Int32) (dnsServer : String)

/-- The call of the engine in `SessionManager.startClient`, for these arguments. -/
def startClient : ℤ × Option Core :=
  nativeStartClient read engine tunFd (configJson proxyAddr mtu dnsServer)

/-- The text is a valid configuration of a client. -/
def IsClientConfig (json : List Char) : Prop :=
  ∃ c, EngineConfig.fromStr read json = some (.client c)

/-- The proxy asked for is the one that is used, and an invalid configuration is refused. -/
structure StartsAsAsked : Prop where
  used : (startClient read engine tunFd proxyAddr mtu dnsServer).1 = OK →
    ∃ c c' cfg, engine = some c ∧
      (startClient read engine tunFd proxyAddr mtu dnsServer).2 = some c' ∧
      c'.clients = c.clients ++ [cfg] ∧ NetParse.socketAddr proxyAddr.toList = some cfg.proxyAddr
  refused : ¬IsClientConfig read (configJson proxyAddr mtu dnsServer) →
    (startClient read engine tunFd proxyAddr mtu dnsServer).1 ≠ OK ∧
      (startClient read engine tunFd proxyAddr mtu dnsServer).2.map Core.state =
        engine.map Core.state

/-- The text is a valid configuration, and names the address that was put into it. -/
def NamesProxy : Prop :=
  ∃ c, EngineConfig.fromStr read (configJson proxyAddr mtu dnsServer) = some (.client c) ∧
    NetParse.socketAddr proxyAddr.toList = some c.proxyAddr

variable {read engine tunFd proxyAddr mtu dnsServer}

theorem clientConfig_eq {json : List Char} {c : ClientConfig}
    (h : EngineConfig.fromStr read json = some (.client c)) :
    clientConfig read json = c := by
  rw [clientConfig, h]

/-- A call that does not get to the engine. -/
theorem startsAsAsked_of_failed (h : tunFd < 0 ∨ engine = none) :
    StartsAsAsked read engine tunFd proxyAddr mtu dnsServer := by
  have hfailed : (startClient read engine tunFd proxyAddr mtu dnsServer).1 ≠ OK ∧
      (startClient read engine tunFd proxyAddr mtu dnsServer).2 = engine := by
    have hcodes : INVALID_FD ≠ OK ∧ NOT_INITIALIZED ≠ OK := by decide
    by_cases hfd : tunFd < 0
    · have hstart : startClient read engine tunFd proxyAddr mtu dnsServer =
          (INVALID_FD, engine) := if_pos hfd
      rw [hstart]
      exact ⟨hcodes.1, rfl⟩
    · have hstart : startClient read none tunFd proxyAddr mtu dnsServer =
          (NOT_INITIALIZED, none) := if_neg hfd
      rw [h.resolve_left hfd, hstart]
      exact ⟨hcodes.2, rfl⟩
  exact ⟨fun hok => absurd hok hfailed.1, fun _ => ⟨hfailed.1, by rw [hfailed.2]⟩⟩

/-- A call that gets there starts a session, with the default configuration if need be. -/
theorem startsAsAsked_some_iff (hfd : ¬tunFd < 0) (c : Core) :
    StartsAsAsked read (some c) tunFd proxyAddr mtu dnsServer ↔
      NamesProxy read proxyAddr mtu dnsServer := by
  have hstart : startClient read (some c) tunFd proxyAddr mtu dnsServer =
      (OK, some ⟨.connecting .client 1,
        c.clients ++ [clientConfig read (configJson proxyAddr mtu dnsServer)]⟩) :=
    nativeStartClient_some read hfd c _
  constructor
  · rintro ⟨hused, hrefused⟩
    rw [hstart] at hused hrefused
    by_cases hvalid : IsClientConfig read (configJson proxyAddr mtu dnsServer)
    · obtain ⟨cfg, hcfg⟩ := hvalid
      obtain ⟨c₀, c', cfg', hc, hc', hclients, haddr⟩ := hused rfl
      cases hc
      cases hc'
      have hsame := List.singleton_inj.mp (List.append_cancel_left hclients)
      rw [clientConfig_eq hcfg] at hsame
      rw [← hsame] at haddr
      exact ⟨cfg, hcfg, haddr⟩
    · exact absurd rfl (hrefused hvalid).1
  · rintro ⟨cfg, hcfg, haddr⟩
    rw [← clientConfig_eq hcfg] at haddr
    refine ⟨fun _ => ?_, fun hvalid => absurd ⟨cfg, hcfg⟩ hvalid⟩
    rw [hstart]
    exact ⟨c, _, _, rfl, rfl, rfl, haddr⟩

variable (read engine tunFd proxyAddr mtu dnsServer)

/-- The proxy asked for is the proxy used, and what is invalid is refused, if and only if the call
does not get to the engine or the text is a valid configuration that names the address. As long as
the texts put into it stay within their quotes, this means that each of them is valid. -/
theorem startsAsAsked_iff :
    (StartsAsAsked read engine tunFd proxyAddr mtu dnsServer ↔
      tunFd < 0 ∨ engine = none ∨ NamesProxy read proxyAddr mtu dnsServer) ∧
    (IsReader read → (∀ c ∈ proxyAddr.toList ++ dnsServer.toList, IsPlain c) →
      (NamesProxy read proxyAddr mtu dnsServer ↔
        (NetParse.socketAddr proxyAddr.toList).isSome = true ∧
          (0 ≤ mtu.toInt ∧ mtu.toInt < 2^16) ∧
          (NetParse.ipAddr dnsServer.toList).isSome = true)) := by
  constructor
  · by_cases hfd : tunFd < 0
    · exact iff_of_true (startsAsAsked_of_failed (Or.inl hfd)) (Or.inl hfd)
    · cases engine with
      | none => exact iff_of_true (startsAsAsked_of_failed (Or.inr rfl)) (Or.inr (Or.inl rfl))
      | some c => simpa [hfd] using startsAsAsked_some_iff hfd c
  · intro hread hplain
    obtain ⟨hp, hd⟩ := List.forall_mem_append.mp hplain
    have hiff := fromStr_configJson_iff hread hp mtu hd
    constructor
    · rintro ⟨c, hc, haddr⟩
      obtain ⟨-, hmtu, hdns⟩ := (hiff c.proxyAddr).mp ⟨c, hc, rfl⟩
      exact ⟨by rw [haddr]; rfl, hmtu, hdns⟩
    · rintro ⟨haddr, hmtu, hdns⟩
      obtain ⟨a, ha⟩ := Option.isSome_iff_exists.mp haddr
      obtain ⟨c, hc, rfl⟩ := (hiff a).mpr ⟨ha, hmtu, hdns⟩
      exact ⟨c, hc, ha⟩

/-- The code of a server that goes by a name is accepted, and the session that is started uses
another proxy. -/
theorem named_server_replaced :
    connectFromQr "host.local:1080" = some "host.local:1080" ∧
    startClient (parse fun _ => true) (some ⟨.idle, []⟩) 3 "host.local:1080" 1280 "1.1.1.1" =
      (OK, some ⟨.connecting .client 1, [ClientConfig.default]⟩) ∧
    ¬IsClientConfig (parse fun _ => true) (configJson "host.local:1080" 1280 "1.1.1.1") ∧
    ¬StartsAsAsked (parse fun _ => true) (some ⟨.idle, []⟩) 3 "host.local:1080" 1280 "1.1.1.1" := by
  have hnone : NetParse.socketAddr "host.local:1080".toList = none := by decide
  have hconfig : EngineConfig.fromStr (parse fun _ => true)
      (configJson "host.local:1080" 1280 "1.1.1.1") = none := by
    rw [fromStr_configJson (isReader_parse _) (isPlain_of_all (by decide)) _
      (isPlain_of_all (by decide)), hnone]
    rfl
  have hinvalid : ¬IsClientConfig (parse fun _ => true)
      (configJson "host.local:1080" 1280 "1.1.1.1") := by
    rintro ⟨c, hc⟩
    cases hconfig.symm.trans hc
  refine ⟨by decide, ?_, hinvalid, ?_⟩
  · rw [startClient, nativeStartClient_some _ (by decide), clientConfig, hconfig]
    rfl
  · rw [startsAsAsked_some_iff (by decide)]
    rintro ⟨c, hc, -⟩
    exact hinvalid ⟨c, hc⟩

end Start

section Scanned

variable (ip : Ipv4Addr) (port : UInt16)

theorem isPlain_display : ∀ c ∈ (SocketAddr.v4 ip port).display.toList, IsPlain c := by
  have hdigits (n : ℕ) : ∀ c ∈ Nat.toDigits 10 n, IsPlain c := by
    intro c hc
    obtain ⟨hlow, hhigh, -⟩ := digit_of_mem_toDigits hc
    refine ⟨?_, ?_, by omega⟩
    · rintro rfl
      exact absurd hlow (by decide)
    · rintro rfl
      exact absurd hhigh (by decide)
  rw [NetParse.toList_display_socket, NetParse.toList_display_v4]
  simp only [List.forall_mem_append, List.forall_mem_cons]
  exact ⟨⟨hdigits _, by decide, hdigits _, by decide, hdigits _, by decide, hdigits _⟩, by decide,
    hdigits _⟩

/-- The code that a server shows is read back as it was. -/
theorem connectFromQr_display :
    connectFromQr (SocketAddr.v4 ip port).display = some (SocketAddr.v4 ip port).display := by
  have hcolon : ':' ∉ Nat.toDigits 10 port.toNat := by
    intro hc
    exact absurd (digit_of_mem_toDigits hc).2.1 (by decide)
  have hport : port.toNat < 2^31 := port.toNat_lt.trans (by decide)
  have hdrop : (ip.display.toList ++ ':' :: Nat.toDigits 10 port.toNat).drop
      (ip.display.toList.length+1) = Nat.toDigits 10 port.toNat := by
    rw [← List.drop_drop, List.drop_left]
    rfl
  rw [connectFromQr, NetParse.toList_display_socket, KotlinText.lastIndexOf_append hcolon]
  simp only [Option.bind_eq_bind, Option.bind_some, hdrop, KotlinText.toInt_toDigits hport,
    List.take_left, String.ofList_toList]
  rfl

/-- A session that is started with such a code uses the address in it. -/
theorem scanned_address_used {read : List Char → Option Value} (hread : IsReader read) {tunFd : ℤ}
    (hfd : ¬tunFd < 0) (c : Core) :
    ∃ proxyAddr, connectFromQr (SocketAddr.v4 ip port).display = some proxyAddr ∧
      startClient read (some c) tunFd proxyAddr 1280 "1.1.1.1" =
        (OK, some ⟨.connecting .client 1,
          c.clients ++ [⟨.v4 ip port, 1280, .v4 ⟨1, 1, 1, 1⟩, true⟩]⟩) := by
  refine ⟨_, connectFromQr_display ip port, ?_⟩
  have hconfig := fromStr_configJson hread (isPlain_display ip port) 1280
    (d := "1.1.1.1") (isPlain_of_all (by decide))
  have hmtu : readU16 (.int (1280 : Int32).toInt) = some 1280 := by decide
  have hdns : NetParse.ipAddr "1.1.1.1".toList = some (.v4 ⟨1, 1, 1, 1⟩) := by decide
  rw [NetParse.socketAddr_display_v4, hmtu, hdns] at hconfig
  rw [startClient, nativeStartClient_some read hfd, clientConfig_eq hconfig]

end Scanned

end GravitalShare.Android

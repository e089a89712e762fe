import GravitalShare.AndroidConfig

/-! What a scanned code can do to the configuration of a session. Its text goes into the JSON as it
is, with any quotes, backslashes and line breaks, but the members around it stay as they are. -/
namespace GravitalShare.Android

open Engine.Config JsonText

section Shape

open KotlinText (Unbroken lines_append lines_insert)

variable {d : String}

/-- A line of the template: so many spaces, and a text that begins with `c`. -/
def templateLine (indent : ℕ) (c : Char) (text : List Char) : List Char :=
  List.replicate indent ' ' ++ c :: text

/-- The lines before that of the address. -/
def linesBefore : List (List Char) :=
  [templateLine 16 '\x7b' [], templateLine 18 '"' "mode\": \"Client\",".toList]

/-- The lines behind that of the address. -/
def linesBehind (mtu : Int32) (d : String) : List (List Char) :=
  [templateLine 18 '"' ("mtu\": ".toList ++ ((toString mtu.toInt).toList ++ ",".toList)),
   templateLine 18 '"' ("dns_server\": \"".toList ++ (d.toList ++ "\"".toList)),
   templateLine 16 '\x7d' []]

/-- Whatever the address is, the lines around it are there, and behind it its own line ends as
in the template. -/
theorem lines_configTemplate_any (p : String) (mtu : Int32) (hd : ∀ c ∈ d.toList, IsPlain c) :
    ∃ between l, KotlinText.lines (configTemplate p mtu d).toList = [] ::
      ((linesBefore ++ (between ++ (l ++ '"' :: [',']) :: linesBehind mtu d)) ++
        [List.replicate 12 ' ']) := by
  have hnone : Unbroken [] := by decide
  have hbrace : Unbroken (configIndent ++ "\x7b".toList) := by decide
  have hmode : Unbroken (configIndent ++ "  \"mode\": \"Client\",".toList) := by decide
  have hmtu : Unbroken (configIndent ++ "  \"mtu\": ".toList) := by decide
  have hdns : Unbroken (configIndent ++ "  \"dns_server\": \"".toList) := by decide
  have hbrace' : Unbroken (configIndent ++ "\x7d".toList) := by decide
  have hlast : KotlinText.lines (List.replicate 12 ' ') = [List.replicate 12 ' '] := by decide
  have htext : (configTemplate p mtu d).toList = [] ++ '\n' ::
      ((configIndent ++ "\x7b".toList) ++ '\n' ::
      ((configIndent ++ "  \"mode\": \"Client\",".toList) ++ '\n' ::
      (((configIndent ++ "  \"proxy_addr\": \"".toList) ++ p.toList) ++ ("\",".toList ++ '\n' ::
      ((configIndent ++ "  \"mtu\": ".toList) ++
        ((toString mtu.toInt).toList ++ (",".toList ++ '\n' ::
      ((configIndent ++ "  \"dns_server\": \"".toList) ++ (d.toList ++ ("\"".toList ++ '\n' ::
      ((configIndent ++ "\x7d".toList) ++ '\n' :: List.replicate 12 ' '))))))))))) := by
    rw [configTemplate, String.toList_join, List.append_assoc _ p.toList]
    rfl
  obtain ⟨between, l, heq⟩ := KotlinText.linesFrom_inserted (by decide : Unbroken "\",".toList)
    (by decide) [] ((configIndent ++ "  \"proxy_addr\": \"".toList) ++ p.toList)
    ((configIndent ++ "  \"mtu\": ".toList) ++ ((toString mtu.toInt).toList ++ (",".toList ++
      '\n' :: ((configIndent ++ "  \"dns_server\": \"".toList) ++ (d.toList ++ ("\"".toList ++
      '\n' :: ((configIndent ++ "\x7d".toList) ++ '\n' :: List.replicate 12 ' ')))))))
  rw [lines_insert hmtu (unbroken_toString _) (by decide),
    lines_insert hdns (unbroken_of_plain hd) (by decide), lines_append hbrace', hlast] at heq
  refine ⟨between, l, ?_⟩
  rw [htext, lines_append hnone, lines_append hbrace, lines_append hmode, KotlinText.lines, heq,
    List.append_assoc linesBefore, List.append_assoc between]
  rfl

theorem spaces_drop (indent k : ℕ) : Spaces ((List.replicate indent ' ').drop k) := by
  intro c hc
  rw [List.eq_of_mem_replicate (List.mem_of_mem_drop hc)]
  rfl

/-- What becomes of the lines of the template, in terms of the members on them. -/
theorem lines_eq_members (mtu : Int32) (hd : ∀ c ∈ d.toList, IsPlain c)
    (outer inner text own : List Char) :
    (outer ++ ['\x7b']) ++ '\n' :: ((inner ++ '"' :: "mode\": \"Client\",".toList) ++ '\n' ::
      (text ++ ['\n'].intercalate [own ++ '"' :: [','],
        inner ++ '"' :: ("mtu\": ".toList ++ ((toString mtu.toInt).toList ++ ",".toList)),
        inner ++ '"' :: ("dns_server\": \"".toList ++ (d.toList ++ "\"".toList)),
        outer ++ ['\x7d']])) =
      outer ++ '\x7b' :: (commaLines inner [modeMember] ++
        ('\n' :: (text ++ (own ++ '"' :: [','])) ++
          (commaLines inner [mtuMember mtu] ++ lastLines inner outer (dnsMember d hd)))) := by
  have hjoin (a b c e : List Char) : ['\n'].intercalate [a, b, c, e] =
      a ++ '\n' :: (b ++ '\n' :: (c ++ '\n' :: e)) := by
    simp [List.intercalate]
  have hmode (rest : List Char) : "mode\": \"Client\",".toList ++ rest =
      modeMember.name ++ '"' :: ':' :: ' ' :: (modeMember.scalar.text ++ ',' :: rest) := rfl
  have hmtu (rest : List Char) : "mtu\": ".toList ++ rest =
      (mtuMember mtu).name ++ '"' :: ':' :: ' ' :: rest := rfl
  have hdns (rest : List Char) : "dns_server\": \"".toList ++ rest =
      (dnsMember d hd).name ++ '"' :: ':' :: ' ' :: '"' :: rest := rfl
  have hcomma (rest : List Char) : ",".toList ++ rest = ',' :: rest := rfl
  have hquote (rest : List Char) : "\"".toList ++ rest = '"' :: rest := rfl
  have htext (rest : List Char) : (dnsMember d hd).scalar.text ++ rest =
      '"' :: (d.toList ++ '"' :: rest) := text_str_append _ _
  have hnone : commaLines inner [] = [] := rfl
  have hvalue : (mtuMember mtu).scalar.text = (toString mtu.toInt).toList := rfl
  rw [hjoin, commaLines_cons_append, commaLines_cons_append, lastLines_eq, htext, hnone, hvalue]
  simp only [List.append_assoc, List.cons_append, List.nil_append, hmode, hmtu, hdns, hcomma,
    hquote]

/-- Up to indentation, what the template has before the address and behind it is there. -/
theorem configJson_any (p : String) (mtu : Int32) (hd : ∀ c ∈ d.toList, IsPlain c) :
    ∃ outer inner text, Spaces outer ∧ Spaces inner ∧ configJson p mtu d =
      outer ++ '\x7b' :: (commaLines inner [modeMember] ++ (text ++
        (commaLines inner [mtuMember mtu] ++ lastLines inner outer (dnsMember d hd)))) := by
  obtain ⟨between, l, hlines⟩ := lines_configTemplate_any p mtu hd
  obtain ⟨k, hk, heq⟩ := KotlinText.trimIndent_inner hlines rfl rfl
  -- what is cut off from such a line is indentation
  have hline (w : List Char) (c : Char) (text : List Char)
      (hc : KotlinText.isWhitespace c = false)
      (hmem : w ++ c :: text ∈
        linesBefore ++ (between ++ (l ++ '"' :: [',']) :: linesBehind mtu d)) :
      (w ++ c :: text).drop k = w.drop k ++ c :: text :=
    KotlinText.drop_line hc (hk _ hmem (KotlinText.isBlank_text hc _ _))
  have htemplate (indent : ℕ) (c : Char) (text : List Char)
      (hmem : templateLine indent c text ∈ linesBefore ++ linesBehind mtu d)
      (hc : KotlinText.isWhitespace c = false) :
      (templateLine indent c text).drop k = (List.replicate indent ' ').drop k ++ c :: text := by
    apply hline _ _ _ hc
    rcases List.mem_append.mp hmem with h | h
    · exact List.mem_append_left _ h
    · exact List.mem_append_right _ (List.mem_append_right _ (List.mem_cons_of_mem _ h))
  have hbefore : linesBefore.map (·.drop k) = [(List.replicate 16 ' ').drop k ++ ['\x7b'],
      (List.replicate 18 ' ').drop k ++ '"' :: "mode\": \"Client\",".toList] := by
    rw [linesBefore, List.map_cons, List.map_cons, htemplate, htemplate]
    all_goals first
      | rfl
      | decide
      | simp only [linesBefore, List.cons_append, List.mem_cons, true_or, or_true]
  have hbehind : (linesBehind mtu d).map (·.drop k) =
      [(List.replicate 18 ' ').drop k ++ '"' :: ("mtu\": ".toList ++
        ((toString mtu.toInt).toList ++ ",".toList)),
       (List.replicate 18 ' ').drop k ++ '"' :: ("dns_server\": \"".toList ++
        (d.toList ++ "\"".toList)),
       (List.replicate 16 ' ').drop k ++ ['\x7d']] := by
    rw [linesBehind, List.map_cons, List.map_cons, List.map_cons, htemplate, htemplate, htemplate]
    all_goals first
      | rfl
      | decide
      | simp only [linesBehind, List.mem_append, List.mem_cons, true_or, or_true]
  have hown : (l ++ '"' :: [',']).drop k = l.drop k ++ '"' :: [','] := by
    apply hline _ _ _ (by decide)
    simp only [List.mem_append, List.mem_cons, true_or, or_true]
  obtain ⟨text, htext⟩ := KotlinText.intercalate_append (between.map (·.drop k))
    (List.cons_ne_nil (l.drop k ++ '"' :: [',']) ((linesBehind mtu d).map (·.drop k)))
  refine ⟨_, _, '\n' :: (text ++ (l.drop k ++ '"' :: [','])), spaces_drop 16 k, spaces_drop 18 k,
    ?_⟩
  rw [configJson, heq, List.map_append, List.map_append, List.map_cons, hown, hbefore,
    List.cons_append, List.cons_append, List.nil_append,
    KotlinText.intercalate_cons_append _ (List.cons_ne_nil _ _),
    KotlinText.intercalate_cons_append _ (by simp), htext, hbehind]
  exact lines_eq_members mtu hd _ _ _ _

end Shape

section Fields

variable {members : List (List Char × Value)} {m : List Char × Value}

/-- A field that is read from an object is read from any member with its name. -/
theorem read_of_field {α : Type} {name : String} {index : ℕ} {read : Value → Option α}
    {default : Option α} {a : α} (hm : m ∈ members) (hname : m.1 = name.toList)
    (h : field name index read default (.map members) = some a) : read m.2 = some a := by
  have hfilter : m ∈ members.filter fun m => m.1 = name.toList :=
    List.mem_filter.mpr ⟨hm, decide_eq_true hname⟩
  rw [field] at h
  split at h
  · next hnil =>
    rw [hnil] at hfilter
    exact absurd hfilter List.not_mem_nil
  · next m' hsingle =>
    rw [hsingle] at hfilter
    rw [List.mem_singleton.mp hfilter]
    exact h
  · cases h

theorem toNat_readU16 {z : ℤ} {n : UInt16} (h : readU16 (.int z) = some n) : (n.toNat : ℤ) = z := by
  rw [readU16, readUnsigned] at h
  split_ifs at h with hrange
  · rw [← Option.some.inj h, UInt16.toNat_ofNat']
    omega
  · cases h

/-- A text that is scanned cannot turn a client into a server, and it can change neither the MTU
nor the DNS server: there is no valid configuration then. -/
theorem fromStr_configJson_any {read : List Char → Option Value} (hread : IsReader read)
    (p : String) (mtu : Int32) {d : String} (hd : ∀ c ∈ d.toList, IsPlain c) {cfg : EngineConfig}
    (h : EngineConfig.fromStr read (configJson p mtu d) = some cfg) :
    ∃ c, cfg = .client c ∧ readU16 (.int mtu.toInt) = some c.mtu ∧
      NetParse.ipAddr d.toList = some c.dnsServer := by
  obtain ⟨v, hvalue, hcfg⟩ := Option.bind_eq_some_iff.mp h
  obtain ⟨outer, inner, text, houter, hinner, hjson⟩ := configJson_any p mtu hd
  rw [hjson] at hvalue
  obtain ⟨more, rfl⟩ := hread.framed _ _ _ _ _ _ _ _ houter hinner houter hvalue
  set members := [modeMember].map Member.pair ++ more ++
    ([mtuMember mtu] ++ [dnsMember d hd]).map Member.pair with hmembers
  have hmode : modeMember.pair ∈ members := by
    simp [hmembers]
  have hmtu : (mtuMember mtu).pair ∈ members := by
    simp [hmembers]
  have hdns : (dnsMember d hd).pair ∈ members := by
    simp [hmembers]
  rw [EngineConfig.deserialize] at hcfg
  obtain ⟨mode, hfield, hvariant⟩ := Option.bind_eq_some_iff.mp hcfg
  cases read_of_field hmode rfl hfield
  have hclient : EngineConfig.variant "Client".toList (.map members) =
      (ClientConfig.deserialize (.map members)).map .client := if_pos rfl
  obtain ⟨c, hc, rfl⟩ := Option.map_eq_some_iff.mp (hclient.symm.trans hvariant)
  rw [ClientConfig.deserialize] at hc
  obtain ⟨proxyAddr, -, hc⟩ := Option.bind_eq_some_iff.mp hc
  obtain ⟨mtu', hmtu', hc⟩ := Option.bind_eq_some_iff.mp hc
  obtain ⟨dnsServer, hdns', hc⟩ := Option.bind_eq_some_iff.mp hc
  obtain ⟨udp, -, hc⟩ := Option.bind_eq_some_iff.mp hc
  cases hc
  exact ⟨_, rfl, read_of_field hmtu rfl hmtu', read_of_field hdns rfl hdns'⟩

end Fields

section Session

variable {read : List Char → Option Value} (hread : IsReader read)

include hread

/-- The configuration that a session gets for such a text, whatever it is. -/
theorem clientConfig_any (p : String) (mtu : Int32) {d : String} (hd : ∀ c ∈ d.toList, IsPlain c) :
    let cfg := clientConfig read (configJson p mtu d)
    cfg = .default ∨
      ((cfg.mtu.toNat : ℤ) = mtu.toInt ∧ NetParse.ipAddr d.toList = some cfg.dnsServer) := by
  dsimp only
  match hcfg : EngineConfig.fromStr read (configJson p mtu d) with
  | none =>
    left
    rw [clientConfig, hcfg]
  | some cfg =>
    right
    obtain ⟨c, rfl, hmtu, hdns⟩ := fromStr_configJson_any hread p mtu hd hcfg
    rw [clientConfig_eq hcfg]
    exact ⟨toNat_readU16 hmtu, hdns⟩

/-- No code that can be scanned changes the MTU or the DNS server of the app, makes the session a
server's or makes the start fail: the session gets both as they were passed, or the whole default.
The proxy address and the UDP association are not protected in this way. -/
theorem scanned_text_confined (p : String) (mtu : Int32) {d : String}
    (hd : ∀ c ∈ d.toList, IsPlain c) {tunFd : ℤ} (hfd : ¬tunFd < 0) (c : Core) :
    ∃ cfg, startClient read (some c) tunFd p mtu d =
        (OK, some ⟨.connecting .client 1, c.clients ++ [cfg]⟩) ∧
      (cfg = .default ∨ ((cfg.mtu.toNat : ℤ) = mtu.toInt ∧
        NetParse.ipAddr d.toList = some cfg.dnsServer)) :=
  ⟨_, nativeStartClient_some read hfd c _, clientConfig_any hread p mtu hd⟩

end Session

/-- A code that closes the quotes of the address and brings members of its own. -/
def craftedCode : String := "1.2.3.4:1080\", \"udp_associate_enabled\": false, \"x\": \"a:1"

/-- It is accepted, names no address, and chooses the proxy and the UDP association. -/
theorem crafted_code_confined : ∃ cfg, connectFromQr craftedCode = some craftedCode ∧
    NetParse.socketAddr craftedCode.toList = none ∧
    startClient (parse fun _ => true) (some ⟨.idle, []⟩) 3 craftedCode 1400 "8.8.8.8" =
      (OK, some ⟨.connecting .client 1, [cfg]⟩) ∧
    cfg.proxyAddr = .v4 ⟨1, 2, 3, 4⟩ 1080 ∧ cfg.udpAssociateEnabled = false ∧
    (cfg.mtu.toNat : ℤ) = 1400 ∧ NetParse.ipAddr "8.8.8.8".toList = some cfg.dnsServer := by
  have hplain : ∀ c ∈ "8.8.8.8".toList, IsPlain c := isPlain_of_all (by decide)
  have hread : clientConfig (parse fun _ => true) (configJson craftedCode 1400 "8.8.8.8") =
      ⟨.v4 ⟨1, 2, 3, 4⟩ 1080, 1400, .v4 ⟨8, 8, 8, 8⟩, false⟩ := by decide +kernel
  obtain ⟨cfg, hstart, hcfg⟩ := scanned_text_confined (isReader_parse fun _ => true) craftedCode
    1400 hplain (by decide : ¬(3 : ℤ) < 0) ⟨.idle, []⟩
  have hstarted := hstart
  rw [startClient, nativeStartClient_some _ (by decide), hread] at hstarted
  cases hstarted
  rcases hcfg with hdefault | ⟨hmtu, hdns⟩
  · cases hdefault
  · exact ⟨_, by decide, by decide, hstart, rfl, rfl, hmtu, hdns⟩

end GravitalShare.Android

import GravitalShare.AndroidScan
import GravitalShare.StackInner
import GravitalShare.Transition

/-! The settings on their way from the screen to a session. The screen edits a copy, a save writes
it to the store some time later, and the VPN service reads the store when it starts. -/
namespace GravitalShare.Android.Settings

open Engine.Config JsonText

structure AppSettings where
  dnsServer : String
  mtu : Int32
  mcpEndpointEnabled : Bool

/-- What the data store has under its three keys. -/
structure Preferences where
  dns : Option String
  mtu : Option Int32
  mcp : Option Bool

def Preferences.settings (p : Preferences) : AppSettings :=
  ⟨p.dns.getD "1.1.1.1", p.mtu.getD 1280, p.mcp.getD false⟩

/-- The transaction of `SettingsRepository.save`. -/
def Preferences.saved (s : AppSettings) : Preferences :=
  ⟨some s.dnsServer, some s.mtu, some s.mcpEndpointEnabled⟩

structure SettingsUiState where
  dnsServer : String := "1.1.1.1"
  mtu : Int32 := 1280
  mcpEndpointEnabled : Bool := false
  isDirty : Bool := false
  savedEvent : Bool := false

def coerceIn (value low high : Int32) : Int32 :=
  if value < low then low else if value > high then high else value

/-- What the user can change on the screen. -/
inductive Edit where
  | dns (value : String)
  | mtu (value : Int32)
  | mcp (enabled : Bool)

namespace SettingsUiState

def ofSettings (s : AppSettings) : SettingsUiState where
  dnsServer := s.dnsServer
  mtu := s.mtu
  mcpEndpointEnabled := s.mcpEndpointEnabled

def onDnsChanged (u : SettingsUiState) (value : String) : SettingsUiState :=
  { u with dnsServer := value, isDirty := true, savedEvent := false }

def onMtuChanged (u : SettingsUiState) (value : Int32) : SettingsUiState :=
  { u with mtu := coerceIn value 576 9000, isDirty := true, savedEvent := false }

def onMcpToggled (u : SettingsUiState) (enabled : Bool) : SettingsUiState :=
  { u with mcpEndpointEnabled := enabled, isDirty := true, savedEvent := false }

def edit (u : SettingsUiState) : Edit → SettingsUiState
  | .dns value => u.onDnsChanged value
  | .mtu value => u.onMtuChanged value
  | .mcp enabled => u.onMcpToggled enabled

/-- What `save` hands to the repository. -/
def settings (u : SettingsUiState) : AppSettings := ⟨u.dnsServer, u.mtu, u.mcpEndpointEnabled⟩

def afterSave (u : SettingsUiState) : SettingsUiState :=
  { u with isDirty := false, savedEvent := true }

def consumeSavedEvent (u : SettingsUiState) : SettingsUiState := { u with savedEvent := false }

end SettingsUiState

/-- The coroutine that fills the screen. -/
inductive Load where
  | reading
  | read (s : AppSettings)
  | done

/-- A `SettingsViewModel`, with the number of its saves that were made but not reported. -/
structure Screen where
  ui : SettingsUiState
  load : Load
  made : ℕ

/-- A save on its way to the store, and whether the screen that asked for it is still there. -/
structure Save where
  settings : AppSettings
  awaited : Bool

/-- A coroutine of `startVpn`, and the settings once it has read them. -/
structure VpnStart where
  proxyAddr : String
  settings : Option AppSettings

structure Device where
  prefs : Preferences
  saves : List Save
  screen : Option Screen
  starts : List VpnStart
  engine : Option Core

/-- A new process on the same device. There is no engine if none can be initialised. -/
def Device.boot (prefs : Preferences) (ready : Bool) : Device where
  prefs := prefs
  saves := []
  screen := none
  starts := []
  engine := if ready then some ⟨.idle, []⟩ else none

inductive DeviceAct where
  | opened
  | closed
  | loadRead
  | loaded
  | edited (e : Edit)
  | save
  | written
  | reported
  | consumed
  | startVpn (extra : Option String)
  | startRead
  | notEstablished
  | established
  | destroyed
  | moved
  | killed

section Steps

variable (read : List Char → Option Value) (numeric : String → Bool)

/-- The saves reach the store one after the other. Those of a screen that is gone may be given up.
`addDnsServer` throws at a text that is not `numeric`, which ends the process. -/
inductive DeviceStep (x : Device) : DeviceAct → Device → Prop
  | opened (h : x.screen = none) : DeviceStep x .opened { x with screen := some ⟨{}, .reading, 0⟩ }
  | closed {left : List Save} (h : left.Sublist x.saves) : DeviceStep x .closed
      { x with screen := none, saves := left.map fun s => { s with awaited := false } }
  | loadRead {v : Screen} (h : x.screen = some v) (hl : v.load = .reading) :
      DeviceStep x .loadRead { x with screen := some { v with load := .read x.prefs.settings } }
  | loaded {v : Screen} {s : AppSettings} (h : x.screen = some v) (hl : v.load = .read s) :
      DeviceStep x .loaded
        { x with screen := some { v with ui := .ofSettings s, load := .done } }
  | edited {v : Screen} (e : Edit) (h : x.screen = some v) :
      DeviceStep x (.edited e) { x with screen := some { v with ui := v.ui.edit e } }
  | save {v : Screen} (h : x.screen = some v) :
      DeviceStep x .save { x with saves := x.saves ++ [⟨v.ui.settings, true⟩] }
  | written {s : Save} {rest : List Save} (h : x.saves = s :: rest) :
      DeviceStep x .written { x with
        prefs := .saved s.settings
        saves := rest
        screen := x.screen.map fun v => { v with made := if s.awaited then v.made+1 else v.made } }
  | reported {v : Screen} {n : ℕ} (h : x.screen = some v) (hn : v.made = n+1) :
      DeviceStep x .reported { x with screen := some { v with ui := v.ui.afterSave, made := n } }
  | consumed {v : Screen} (h : x.screen = some v) :
      DeviceStep x .consumed { x with screen := some { v with ui := v.ui.consumeSavedEvent } }
  | startVpn (extra : Option String) : DeviceStep x (.startVpn extra)
      { x with starts := x.starts ++ [⟨extra.getD "192.168.43.1:1080", none⟩] }
  | startRead {before behind : List VpnStart} {p : String}
      (h : x.starts = before ++ ⟨p, none⟩ :: behind) :
      DeviceStep x .startRead
        { x with starts := before ++ ⟨p, some x.prefs.settings⟩ :: behind }
  | notEstablished {before behind : List VpnStart} {p : String} {s : AppSettings}
      (h : x.starts = before ++ ⟨p, some s⟩ :: behind) (hd : numeric s.dnsServer = true) :
      DeviceStep x .notEstablished { x with starts := before ++ behind }
  | established {before behind : List VpnStart} {p : String} {s : AppSettings} (tunFd : ℤ)
      (h : x.starts = before ++ ⟨p, some s⟩ :: behind) (hd : numeric s.dnsServer = true)
      (hfd : ¬tunFd < 0) :
      DeviceStep x .established { x with
        starts := before ++ behind
        engine := (startClient read x.engine tunFd p s.mtu s.dnsServer).2 }
  -- `onDestroy` cancels what has not been handed to the session manager
  | destroyed {left : List VpnStart} (h : left.Sublist x.starts) :
      DeviceStep x .destroyed { x with starts := left }
  -- whatever else is done with the engine
  | moved (state : Engine.SessionState) :
      DeviceStep x .moved { x with engine := x.engine.map fun c => { c with state } }
  | killed (ready : Bool) : DeviceStep x .killed (.boot x.prefs ready)

end Steps

/-- An MTU that the stack accepts. -/
def Fits (s : AppSettings) : Prop := 576 ≤ s.mtu.toInt ∧ s.mtu.toInt ≤ 9000

instance (s : AppSettings) : Decidable (Fits s) := inferInstanceAs (Decidable (_ ∧ _))

theorem fits_coerceIn (value : Int32) :
    576 ≤ (coerceIn value 576 9000).toInt ∧ (coerceIn value 576 9000).toInt ≤ 9000 := by
  have hlow : (576 : Int32).toInt = 576 := by decide
  have hhigh : (9000 : Int32).toInt = 9000 := by decide
  rw [coerceIn]
  split_ifs with h h'
  · rw [hlow]
    omega
  · rw [hhigh]
    omega
  · rw [gt_iff_lt, Int32.lt_iff_toInt_lt, hhigh] at h'
    rw [Int32.lt_iff_toInt_lt, hlow] at h
    omega

theorem fits_edit {u : SettingsUiState} (h : Fits u.settings) (e : Edit) :
    Fits (u.edit e).settings := by
  cases e with
  | dns value => exact h
  | mtu value => exact fits_coerceIn value
  | mcp enabled => exact h

theorem new_of_fits {s : AppSettings} (h : Fits s) {mtu : UInt16}
    (hm : (mtu.toNat : ℤ) = s.mtu.toInt) :
    Stack.UserspaceStack.new mtu = .ok (Stack.Inner.new mtu) := by
  have hlow : ¬mtu < 576 := by
    rw [UInt16.lt_iff_toNat_lt]
    have h576 : (576 : UInt16).toNat = 576 := rfl
    have := h.1
    omega
  have hhigh : ¬mtu > 9000 := by
    rw [gt_iff_lt, UInt16.lt_iff_toNat_lt]
    have h9000 : (9000 : UInt16).toNat = 9000 := rfl
    have := h.2
    omega
  exact if_neg (not_or.mpr ⟨hlow, hhigh⟩)

/-- Every MTU between the screen and the store is one that the stack accepts. -/
structure Ok (x : Device) : Prop where
  prefs : Fits x.prefs.settings
  saves : ∀ s ∈ x.saves, Fits s.settings
  shown : ∀ v ∈ x.screen, Fits v.ui.settings
  read : ∀ v ∈ x.screen, ∀ s, v.load = .read s → Fits s

section Runs

variable {read : List Char → Option Value} {numeric : String → Bool} {x y : Device}
  {a : DeviceAct} {tr : List (Device × DeviceAct)}

theorem ok_boot {prefs : Preferences} (h : Fits prefs.settings) (ready : Bool) :
    Ok (.boot prefs ready) := by
  refine ⟨h, fun _ hs => absurd hs List.not_mem_nil, ?_, ?_⟩ <;> (intro v hv; cases hv)

/-- A step that leaves the store and the saves alone, and puts `v` on the screen. -/
theorem Ok.shows (h : Ok x) (v : Screen) (hshown : Fits v.ui.settings)
    (hread : ∀ s, v.load = .read s → Fits s) : Ok { x with screen := some v } := by
  refine ⟨h.prefs, h.saves, ?_, ?_⟩
  · intro v' hv
    cases hv
    exact hshown
  · intro v' hv
    cases hv
    exact hread

theorem Ok.step (h : Ok x) (hs : DeviceStep read numeric x a y) : Ok y := by
  have h1280 : Fits (Preferences.mk none none none).settings := by decide
  cases hs with
  | opened hn =>
    apply h.shows
    · exact h1280
    · intro s hl
      cases hl
  | @closed left hl =>
    refine ⟨h.prefs, ?_, ?_, ?_⟩
    · intro s hs
      obtain ⟨s', hs', rfl⟩ := List.mem_map.mp hs
      exact h.saves s' (hl.subset hs')
    all_goals (intro v hv; cases hv)
  | @loadRead v hv hl =>
    apply h.shows
    · exact h.shown v hv
    · intro s hs
      cases hs
      exact h.prefs
  | loaded hv hl =>
    apply h.shows
    · exact h.read _ hv _ hl
    · intro s hs
      cases hs
  | @edited v e hv =>
    apply h.shows
    · exact fits_edit (h.shown v hv) e
    · exact h.read v hv
  | save hv =>
    refine ⟨h.prefs, ?_, h.shown, h.read⟩
    rw [List.forall_mem_append, List.forall_mem_singleton]
    exact ⟨h.saves, h.shown _ hv⟩
  | written hw =>
    have hsaves := h.saves
    rw [hw, List.forall_mem_cons] at hsaves
    refine ⟨hsaves.1, hsaves.2, ?_, ?_⟩
    · intro v hv
      obtain ⟨v', hv', rfl⟩ := Option.map_eq_some_iff.mp hv
      exact h.shown v' hv'
    · intro v hv
      obtain ⟨v', hv', rfl⟩ := Option.map_eq_some_iff.mp hv
      exact h.read v' hv'
  | @reported v _ hv _ | @consumed v hv =>
    apply h.shows
    · exact h.shown v hv
    · exact h.read v hv
  | startVpn _ | startRead _ | notEstablished _ _ | established _ _ _ _ | destroyed _ | moved _ =>
    exact ⟨h.prefs, h.saves, h.shown, h.read⟩
  | killed ready => exact ok_boot h.prefs ready

/-- These settings were in the store at some time. -/
def Stored (tr : List (Device × DeviceAct)) (s : AppSettings) : Prop :=
  ∃ p ∈ tr, p.1.prefs.settings = s

/-- The configuration of a session is the default, or it has the MTU and the DNS server of
settings that were in the store at one time. -/
def Configured (tr : List (Device × DeviceAct)) (cfg : ClientConfig) : Prop :=
  cfg = .default ∨ ∃ s, Stored tr s ∧ (cfg.mtu.toNat : ℤ) = s.mtu.toInt ∧
    NetParse.ipAddr s.dnsServer.toList = some cfg.dnsServer

theorem Stored.snoc {s : AppSettings} (h : Stored tr s) (p : Device × DeviceAct) :
    Stored (tr ++ [p]) s := by
  obtain ⟨q, hq, hs⟩ := h
  exact ⟨q, List.mem_append_left _ hq, hs⟩

theorem Configured.snoc {cfg : ClientConfig} (h : Configured tr cfg) (p : Device × DeviceAct) :
    Configured (tr ++ [p]) cfg := by
  rcases h with h | ⟨s, hs, hcfg⟩
  · exact Or.inl h
  · exact Or.inr ⟨s, hs.snoc p, hcfg⟩

theorem startClient_none (read : List Char → Option Value) (tunFd : ℤ) (p : String) (mtu : Int32)
    (d : String) : (startClient read none tunFd p mtu d).2 = none := by
  rw [startClient, nativeStartClient]
  split_ifs <;> rfl

/-- Where the settings come from that a start has read, and those that a session was given. -/
structure Origin (tr : List (Device × DeviceAct)) (x : Device) : Prop where
  starts : ∀ t ∈ x.starts, ∀ s ∈ t.settings, Stored tr s
  clients : ∀ c ∈ x.engine, ∀ cfg ∈ c.clients, Configured tr cfg

theorem Origin.boot (tr : List (Device × DeviceAct)) (prefs : Preferences) (ready : Bool) :
    Origin tr (.boot prefs ready) := by
  refine ⟨fun _ ht => absurd ht List.not_mem_nil, ?_⟩
  intro c hc cfg hcfg
  cases ready with
  | false => cases hc
  | true =>
    cases hc
    exact absurd hcfg List.not_mem_nil

theorem Origin.snoc (h : Origin tr x) (p : Device × DeviceAct) : Origin (tr ++ [p]) x :=
  ⟨fun t ht s hs => (h.starts t ht s hs).snoc p,
    fun c hc cfg hcfg => (h.clients c hc cfg hcfg).snoc p⟩

/-- One of the starts, and the others. -/
theorem Origin.split {before behind : List VpnStart} {t : VpnStart} (h : Origin tr x)
    (ht : x.starts = before ++ t :: behind) :
    (∀ s ∈ t.settings, Stored tr s) ∧ ∀ t' ∈ before ++ behind, ∀ s ∈ t'.settings, Stored tr s := by
  have hstarts := h.starts
  rw [ht, List.forall_mem_append, List.forall_mem_cons] at hstarts
  refine ⟨hstarts.2.1, ?_⟩
  rw [List.forall_mem_append]
  exact ⟨hstarts.1, hstarts.2.2⟩

theorem Origin.step (hread : IsReader read)
    (hplain : ∀ d, numeric d = true → ∀ c ∈ d.toList, IsPlain c) (h : Origin tr x)
    (hs : DeviceStep read numeric x a y) : Origin (tr ++ [(x, a)]) y := by
  have hold := h.snoc (x, a)
  cases hs with
  | opened _ | closed _ | loadRead _ _ | loaded _ _ | edited _ _ =>
    exact ⟨hold.starts, hold.clients⟩
  | save _ | written _ | reported _ _ | consumed _ => exact ⟨hold.starts, hold.clients⟩
  | startVpn extra =>
    refine ⟨?_, hold.clients⟩
    rw [List.forall_mem_append, List.forall_mem_singleton]
    exact ⟨hold.starts, fun s hs => by cases hs⟩
  | startRead ht =>
    refine ⟨?_, hold.clients⟩
    have hothers := (hold.split ht).2
    rw [List.forall_mem_append] at hothers ⊢
    rw [List.forall_mem_cons]
    refine ⟨hothers.1, ?_, hothers.2⟩
    intro s hs
    cases hs
    exact ⟨(x, _), List.mem_append_right _ (List.mem_singleton_self _), rfl⟩
  | notEstablished ht hd => exact ⟨(hold.split ht).2, hold.clients⟩
  | @established before behind p s tunFd ht hd hfd =>
    obtain ⟨hstored, hothers⟩ := hold.split ht
    refine ⟨hothers, ?_⟩
    intro c hc cfg hcfg
    dsimp only at hc
    match he : x.engine with
    | none =>
      rw [he] at hc
      cases (startClient_none read tunFd p s.mtu s.dnsServer).symm.trans hc
    | some core =>
      rw [he, startClient, nativeStartClient_some read hfd] at hc
      cases hc
      rcases List.mem_append.mp hcfg with hcfg | hcfg
      · exact hold.clients core he cfg hcfg
      · rw [List.mem_singleton.mp hcfg]
        -- whatever the address is, the text cannot carry other settings than these
        rcases clientConfig_any hread p s.mtu (hplain _ hd) with hc | hc
        · exact Or.inl hc
        · exact Or.inr ⟨s, hstored s rfl, hc⟩
  | destroyed hl => exact ⟨fun t ht => hold.starts t (hl.subset ht), hold.clients⟩
  | moved state =>
    refine ⟨hold.starts, ?_⟩
    intro c hc
    obtain ⟨c', hc', rfl⟩ := Option.map_eq_some_iff.mp hc
    exact hold.clients c' hc'
  | killed ready => exact .boot _ _ _

/-- From the first start of the app on, through any edits, saves, starts and restarts: the store
only ever has an MTU that the stack accepts, and so has every session that the service starts,
for whatever address. What it has of the settings was in the store at one time. -/
theorem sessions_fit (hread : IsReader read)
    (hplain : ∀ d, numeric d = true → ∀ c ∈ d.toList, IsPlain c) (ready : Bool)
    (hrun : Run (DeviceStep read numeric) (.boot ⟨none, none, none⟩ ready) tr x) :
    Fits x.prefs.settings ∧
      ∀ core ∈ x.engine, ∀ cfg ∈ core.clients,
        Stack.UserspaceStack.new cfg.mtu = .ok (Stack.Inner.new cfg.mtu) ∧ Configured tr cfg := by
  have hfirst : Fits (Preferences.mk none none none).settings := by decide
  -- every settings that were in the store fit as well
  have hall : (Ok x ∧ ∀ s, Stored tr s → Fits s) ∧ Origin tr x := by
    apply hrun.history fun tr x => (Ok x ∧ ∀ s, Stored tr s → Fits s) ∧ Origin tr x
    · refine ⟨⟨ok_boot hfirst ready, ?_⟩, .boot _ _ _⟩
      rintro s ⟨p, hp, -⟩
      exact absurd hp List.not_mem_nil
    · rintro tr t a u ⟨⟨hok, hstored⟩, horigin⟩ hs
      refine ⟨⟨hok.step hs, ?_⟩, horigin.step hread hplain hs⟩
      rintro s ⟨p, hp, rfl⟩
      rcases List.mem_append.mp hp with hp | hp
      · exact hstored _ ⟨p, hp, rfl⟩
      · rw [List.mem_singleton.mp hp]
        exact hok.prefs
  obtain ⟨⟨hok, hstored⟩, horigin⟩ := hall
  refine ⟨hok.prefs, ?_⟩
  intro core hcore cfg hcfg
  have hconf := horigin.clients core hcore cfg hcfg
  refine ⟨?_, hconf⟩
  rcases hconf with rfl | ⟨s, hs, hmtu, -⟩
  · rfl
  · exact new_of_fits (hstored s hs) hmtu

/-- What takes for an address any text that stays in its quotes. -/
def plainText (d : String) : Bool := d.toList.all fun c => decide (IsPlain c)

/-- A code that brings an MTU of its own. -/
def hostileCode : String := "10.0.0.1:1080\", \"mtu\": 70, \"peer\": \"10.0.0.1:1080"

/-- An MTU of 70 is typed in and saved, and then a code is scanned that brings one of its own. -/
theorem small_mtu_coerced : ∃ tr x core cfg,
    Run (DeviceStep (parse fun _ => true) plainText) (.boot ⟨none, none, none⟩ true) tr x ∧
      x.engine = some core ∧ core.clients = [cfg] ∧
      Stack.UserspaceStack.new cfg.mtu = .ok (Stack.Inner.new cfg.mtu) := by
  have hplain (d : String) (hd : plainText d = true) : ∀ c ∈ d.toList, IsPlain c :=
    isPlain_of_all hd
  have hopened : DeviceStep (parse fun _ => true) plainText (.boot ⟨none, none, none⟩ true)
    .opened _ := .opened rfl
  have htyped := ((Run.single hopened).snoc (.edited (.mtu 70) rfl)).snoc (.save rfl)
  have hstarted := (htyped.snoc (.written rfl)).snoc (.startVpn (some hostileCode))
  have hread := hstarted.snoc (@DeviceStep.startRead _ _ _ [] [] hostileCode rfl)
  have hrun := hread.snoc (@DeviceStep.established _ _ _ [] [] hostileCode _ 3 rfl (by decide)
    (by decide))
  refine ⟨_, _, _, _, hrun, rfl, rfl, ?_⟩
  exact ((sessions_fit (isReader_parse _) hplain true hrun).2 _ rfl _ (List.mem_singleton_self _)).1

end Runs

end GravitalShare.Android.Settings

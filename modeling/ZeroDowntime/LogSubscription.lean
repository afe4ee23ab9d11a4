import ZeroDowntime.LogViewer
/-!
# LogSubscription — what is shown is of the live subscription

The epoch of a stream is the number of reconnects up to it, as far as 64 bits count.  Until they wrap around a message is
taken for one of the live stream exactly if no reconnect came after the one that spawned its task.
-/
namespace ZeroDowntime
namespace LogTui

open Api (DeviceModel Overflow)
open Logs (LogLevel)

namespace Session

variable {o : Overflow} {clock : Int → List Char} {parse : List Char → Except (List Char) LogEvent} {s s' : Session}
  {a : SessionAction}

/-- What has arrived along a run. -/
def shown (o : Overflow) (clock : Int → List Char) (parse : List Char → Except (List Char) LogEvent) :
    Session → List SessionAction → List LogEvent → List LogEvent
  | _, [], entries => entries
  | s, a :: as, entries =>
    match s.step o clock parse a with
    | none => entries
    | some s' => shown o clock parse s' as (s.arrived a entries)

/-- `entries` have arrived since the logs were cleared.  The last subscription is the live one, and each message on the
channel carries the epoch of its own. -/
structure Live (devices : List DeviceModel) (maxLogs : Nat) (s : Session) (entries : List LogEvent) : Prop where
  devices : s.viewer.devices = devices
  maxLogs : s.viewer.maxLogs = maxLogs
  selected : s.viewer.selected ≤ s.viewer.devices.length
  logs : s.viewer.logs.entries = entries.rtake s.viewer.maxLogs
  epoch : s.viewer.epoch = s.viewer.subscriptions.length % 18446744073709551616
  live : s.viewer.subscriptions.getLast? = some ⟨s.viewer.currentQuery, s.viewer.epoch⟩
  numbered : ∀ i sub, s.viewer.subscriptions[i]? = some sub → sub.epoch = (i + 1) % 18446744073709551616
  tagged : ∀ m ∈ s.channel, ∃ sub, s.viewer.subscriptions[m.1]? = some sub ∧ m.2.epoch = sub.epoch

theorem increment_mod {n m : Nat} (h : increment o (n % 18446744073709551616) = some m) :
    m = (n + 1) % 18446744073709551616 := by
  unfold increment usizeMax at h
  split at h
  · obtain rfl := Option.some.inj h
    omega
  · split at h
    · cases h
    · obtain rfl := Option.some.inj h
      omega

variable {devices : List DeviceModel} {maxLogs : Nat} {entries : List LogEvent}

/-- A reconnect makes the filter that is selected then the live one. -/
theorem Live.reconnect (h : Live devices maxLogs s entries) {selected : Nat} {minLevel : Option LogLevel} {v : Viewer}
    (hs : s.viewer.selected ≤ s.viewer.devices.length → selected ≤ s.viewer.devices.length)
    (hv : ({ s.viewer with selected := selected, minLevel := minLevel }).reconnect o = some v) :
    Live devices maxLogs { s with viewer := v } entries := by
  obtain ⟨epoch, hepoch, hsubs, heq⟩ := Viewer.subscriptions_of_reconnect hv
  have hold : ({ s.viewer with selected := selected, minLevel := minLevel } : Viewer).subscriptions =
      s.viewer.subscriptions := rfl
  rw [hold] at hsubs
  have hnext : epoch = (s.viewer.subscriptions.length + 1) % 18446744073709551616 :=
    increment_mod (by rw [← h.epoch]; exact hepoch)
  have hlen : v.subscriptions.length = s.viewer.subscriptions.length + 1 := by
    rw [hsubs, List.length_append, List.length_singleton]
  have hfields : v.devices = s.viewer.devices ∧ v.maxLogs = s.viewer.maxLogs ∧ v.logs = s.viewer.logs ∧
      v.selected = selected ∧ v.epoch = epoch ∧
      v.currentQuery = ({ s.viewer with selected := selected, minLevel := minLevel } : Viewer).currentQuery := by
    rw [heq]
    exact ⟨rfl, rfl, rfl, rfl, rfl, rfl⟩
  obtain ⟨hdevices, hmax, hlogs, hselected, hepoch', hquery⟩ := hfields
  refine ⟨hdevices.trans h.devices, hmax.trans h.maxLogs, ?_, ?_, ?_, ?_, fun i sub hi => ?_, fun m hm => ?_⟩
  · show v.selected ≤ v.devices.length
    rw [hselected, hdevices]
    exact hs h.selected
  · show v.logs.entries = entries.rtake v.maxLogs
    rw [hlogs, hmax]
    exact h.logs
  · show v.epoch = v.subscriptions.length % 18446744073709551616
    rw [hepoch', hlen]
    exact hnext
  · show v.subscriptions.getLast? = some ⟨v.currentQuery, v.epoch⟩
    rw [hsubs, List.getLast?_concat, hquery, hepoch']
  · have hi : v.subscriptions[i]? = some sub := hi
    rw [hsubs] at hi
    rcases Arrivals.of_concat hi with hi | ⟨rfl, rfl⟩
    · exact h.numbered i sub hi
    · exact hnext
  · obtain ⟨sub, hsub, hm⟩ := h.tagged m hm
    exact ⟨sub, by rw [hsubs]; exact Arrivals.getElem?_concat _ _ _ _ hsub, hm⟩

theorem Live.step (h : Live devices maxLogs s entries) (hs : s.step o clock parse a = some s') :
    Live devices maxLogs s' (s.arrived a entries) := by
  cases stepped_of_step hs with
  | drawn area scroll viewport =>
    exact ⟨h.devices, h.maxLogs, h.selected, h.logs, h.epoch, h.live, h.numbered, h.tagged⟩
  | key code control v hv =>
    cases hv with
    | cleared hc =>
      have hnone : s.arrived (.key code control) entries = [] := if_pos hc
      rw [hnone]
      exact ⟨h.devices, h.maxLogs, h.selected, (List.rtake_nil ..).symm, h.epoch, h.live, h.numbered, h.tagged⟩
    | moved hc scroll quit =>
      have hsame : s.arrived (.key code control) entries = entries := if_neg (by rw [hc]; decide)
      rw [hsame]
      exact ⟨h.devices, h.maxLogs, h.selected, h.logs, h.epoch, h.live, h.numbered, h.tagged⟩
    | filtered hc selected minLevel hs v hv =>
      have hsame : s.arrived (.key code control) entries = entries := if_neg (by rw [hc]; decide)
      rw [hsame]
      exact h.reconnect hs hv
  | received stream msg channel v hc hv =>
    have htagged : ∀ m ∈ channel, ∃ sub, s.viewer.subscriptions[m.1]? = some sub ∧ m.2.epoch = sub.epoch :=
      fun m hm => h.tagged m (by rw [hc]; exact List.mem_cons_of_mem _ hm)
    obtain ⟨epoch, kind⟩ := msg
    rcases Viewer.onMsg_cases hv with ⟨hne, rfl⟩ | ⟨-, hkind, conn, lastWarn, rfl⟩ |
      ⟨heq, e, logs, scroll, hkind, hpush, rfl⟩
    · have hsame : s.arrived .recv entries = entries := by
        rw [arrived, hc]
        cases kind with
        | log e => exact if_neg hne
        | _ => rfl
      rw [hsame]
      exact ⟨h.devices, h.maxLogs, h.selected, h.logs, h.epoch, h.live, h.numbered, htagged⟩
    · have hsame : s.arrived .recv entries = entries := by
        rw [arrived, hc]
        cases kind with
        | log e => exact absurd rfl (hkind e)
        | _ => rfl
      rw [hsame]
      exact ⟨h.devices, h.maxLogs, h.selected, h.logs, h.epoch, h.live, h.numbered, htagged⟩
    · obtain rfl : kind = .log e := hkind
      have hmore : s.arrived .recv entries = entries ++ [e] := by
        rw [arrived, hc]
        exact if_pos heq
      rw [hmore]
      refine ⟨h.devices, h.maxLogs, h.selected, ?_, h.epoch, h.live, h.numbered, htagged⟩
      show logs.entries = (entries ++ [e]).rtake s.viewer.maxLogs
      rw [LogDeque.entries_of_push hpush, h.logs, Viewport.rtake_concat]
  | streamed a ha streams hstreams sent hsent =>
    have hsubs : ({ s.viewer with streams := streams } : Viewer).subscriptions = s.viewer.subscriptions := hstreams
    rw [arrived_of_task ha]
    refine ⟨h.devices, h.maxLogs, h.selected, h.logs, ?_, ?_, ?_, ?_⟩
    · show s.viewer.epoch = _
      rw [hsubs]
      exact h.epoch
    · show ({ s.viewer with streams := streams } : Viewer).subscriptions.getLast? = _
      rw [hsubs]
      exact h.live
    · show ∀ i sub, ({ s.viewer with streams := streams } : Viewer).subscriptions[i]? = some sub → _
      rw [hsubs]
      exact h.numbered
    · intro m hm
      show ∃ sub, ({ s.viewer with streams := streams } : Viewer).subscriptions[m.1]? = some sub ∧ _
      rw [hsubs]
      rcases List.mem_append.1 hm with hm | hm
      · exact h.tagged m hm
      · exact hsent m hm

/-- **A run shows what has arrived along it.** -/
theorem Live.run : ∀ {as : List SessionAction} {s s' : Session} {entries : List LogEvent},
    Live devices maxLogs s entries → Runs.run (Session.step o clock parse) s as = some s' →
      Live devices maxLogs s' (shown o clock parse s as entries)
  | [], _, _, _, h, hr => Option.some.inj hr ▸ h
  | a :: as, s, s', entries, h, hr => by
    obtain ⟨s₁, hs, hr⟩ := (Runs.run_cons_eq_some _ s s' a as).1 hr
    rw [shown, hs]
    exact (h.step hs).run hr

theorem live_start {minLevel : Option LogLevel} {selected : Nat} (hselected : selected ≤ devices.length)
    (h : start o minLevel maxLogs devices selected = some s) : Live devices (max maxLogs 1) s [] := by
  obtain ⟨v, hv, rfl⟩ := Option.map_eq_some_iff.1 h
  obtain ⟨epoch, hepoch, hsubs, heq⟩ := Viewer.subscriptions_of_reconnect hv
  have hone : epoch = (0 + 1) % 18446744073709551616 := increment_mod hepoch
  have hsubs : v.subscriptions = [⟨v.currentQuery, v.epoch⟩] := by
    rw [hsubs, heq]
    rfl
  have hepoch : v.epoch = epoch := by rw [heq]
  have hv : v.devices = devices ∧ v.maxLogs = max maxLogs 1 ∧ v.selected = selected ∧ v.logs = .empty := by
    rw [heq]
    exact ⟨rfl, rfl, rfl, rfl⟩
  obtain ⟨hdevices, hmax, hsel, hlogs⟩ := hv
  refine ⟨hdevices, hmax, ?_, ?_, ?_, ?_, fun i sub hi => ?_, nofun⟩
  · show v.selected ≤ v.devices.length
    rw [hsel, hdevices]
    exact hselected
  · show v.logs.entries = [].rtake v.maxLogs
    rw [hlogs, List.rtake_nil, LogDeque.empty]
  · show v.epoch = v.subscriptions.length % 18446744073709551616
    rw [hsubs, hepoch, hone]
    rfl
  · show v.subscriptions.getLast? = _
    rw [hsubs]
    rfl
  · have hi : v.subscriptions[i]? = some sub := hi
    rw [hsubs] at hi
    cases i with
    | zero =>
      obtain rfl := Option.some.inj hi
      exact hepoch.trans hone
    | succ i => cases hi

/-- **The epochs tell the live stream from any other**, until they wrap around. -/
theorem Live.epoch_eq_iff (h : Live devices maxLogs s entries) (hfew : s.viewer.streams.length ≤ 18446744073709551616)
    {stream : Nat} {msg : Msg} (hm : (stream, msg) ∈ s.channel) :
    msg.epoch = s.viewer.epoch ↔ stream + 1 = s.viewer.streams.length := by
  obtain ⟨sub, hsub, hepoch⟩ := h.tagged _ hm
  have hlen : s.viewer.subscriptions.length = s.viewer.streams.length := List.length_map _
  have hlt : stream < s.viewer.streams.length := hlen ▸ (List.getElem?_eq_some_iff.1 hsub).1
  have hmsg : msg.epoch = sub.epoch := hepoch
  rw [hmsg, h.numbered stream sub hsub, h.epoch, hlen]
  omega

/-- The entry of the sidebar that is highlighted names the device the query asks for. -/
theorem highlighted (app : App) (h : app.selected ≤ app.devices.length) :
    ∃ entry, app.sidebar[app.selected]? = some entry ∧ app.currentQuery.deviceId = entry.map DeviceModel.id := by
  unfold App.sidebar App.currentQuery App.selectedDeviceId
  cases hsel : app.selected with
  | zero => exact ⟨none, rfl, rfl⟩
  | succ k =>
    rw [hsel] at h
    have hk : k < app.devices.length := h
    refine ⟨some app.devices[k], ?_, ?_⟩
    · rw [List.getElem?_cons_succ, List.getElem?_map, List.getElem?_eq_getElem hk, Option.map_some]
    · rw [if_neg (Nat.succ_ne_zero k), Nat.add_sub_cancel, List.getElem?_eq_getElem hk]

/-- **The log viewer shows the messages of its live subscription**, whatever keys are pressed and whatever its tasks
send in whatever order.  The logs are the last `max_logs` events that carried the epoch current at their arrival, since
they were cleared.  The stream opened last asks for the device that is highlighted.  Up to the first 2^64 reconnects,
messages carry the current epoch exactly if they are from that stream, and a message of a torn-down stream changes
nothing. -/
theorem viewer_shows_live_subscription (o : Overflow) (clock : Int → List Char)
    (parse : List Char → Except (List Char) LogEvent) (minLevel : Option LogLevel) (maxLogs : Nat)
    (devices : List DeviceModel) (selected : Nat) (hselected : selected ≤ devices.length) (s₀ s : Session)
    (hstart : start o minLevel maxLogs devices selected = some s₀) (as : List SessionAction)
    (hrun : Runs.run (step o clock parse) s₀ as = some s) :
    s.viewer.logs.entries = (shown o clock parse s₀ as []).rtake (max maxLogs 1) ∧
      (s.viewer.devices = devices ∧ s.viewer.selected ≤ devices.length) ∧
      (∃ task entry, s.viewer.streams.getLast? = some task ∧
        task.subscription = ⟨s.viewer.currentQuery, s.viewer.epoch⟩ ∧
        s.viewer.sidebar[s.viewer.selected]? = some entry ∧
        s.viewer.currentQuery.deviceId = entry.map DeviceModel.id) ∧
      (s.viewer.streams.length ≤ 18446744073709551616 → ∀ stream msg rest, s.channel = (stream, msg) :: rest →
        (msg.epoch = s.viewer.epoch ↔ stream + 1 = s.viewer.streams.length) ∧
        (stream + 1 ≠ s.viewer.streams.length →
          ∀ s', s.step o clock parse .recv = some s' → s'.viewer = s.viewer)) := by
  have h : Live devices (max maxLogs 1) s (shown o clock parse s₀ as []) := (live_start hselected hstart).run hrun
  refine ⟨?_, ⟨h.devices, ?_⟩, ?_, fun hfew stream msg rest hc => ?_⟩
  · rw [h.logs, h.maxLogs]
  · rw [← h.devices]
    exact h.selected
  · obtain ⟨entry, hentry, hdevice⟩ := highlighted s.viewer.toApp h.selected
    have hlive := h.live
    rw [Viewer.subscriptions, List.getLast?_map, Option.map_eq_some_iff] at hlive
    obtain ⟨task, htask, hsub⟩ := hlive
    exact ⟨task, entry, htask, hsub, hentry, hdevice⟩
  · have hmem : (stream, msg) ∈ s.channel := by
      rw [hc]
      exact List.mem_cons_self
    have hiff := h.epoch_eq_iff hfew hmem
    refine ⟨hiff, fun hne s' hs => ?_⟩
    cases stepped_of_step hs with
    | received stream' msg' channel v hc' hv =>
      obtain ⟨⟨-, rfl⟩, -⟩ := (by simpa using hc.symm.trans hc' : (stream = stream' ∧ msg = msg') ∧ rest = channel)
      rcases Viewer.onMsg_cases hv with ⟨-, rfl⟩ | ⟨heq, -⟩ | ⟨heq, -⟩
      · rfl
      · exact absurd (hiff.1 heq) hne
      · exact absurd (hiff.1 heq) hne
    | streamed _ ha => cases ha

def oneDevice : List DeviceModel := [⟨1, "00000000-0000-0000-0000-000000000001", none, "SN1", 1, none⟩]

def oneEvent : LogEvent := .device ⟨0, 1, 1, .info, ['x'], none⟩

/-- The first stream connects and has an event. -/
def opening : List SessionAction := [.respond 0 none, .recv, .item 0 (.event ['x'])]

/-- The event of the first stream arrives after a key has opened another. -/
theorem viewer_shows_live_after_key : ∃ s₀ s, start .panics none 0 oneDevice 0 = some s₀ ∧
    Runs.run (step .panics (fun _ => []) (fun _ => .ok oneEvent)) s₀ (opening ++ [.key .down false]) = some s ∧
    s.viewer.selected = 1 ∧ s.channel = [(0, ⟨1, .log oneEvent⟩)] ∧
    s.viewer.logs.entries =
      (shown .panics (fun _ => []) (fun _ => .ok oneEvent) s₀ (opening ++ [.key .down false]) []).rtake 1 ∧
    ∀ s', s.step .panics (fun _ => []) (fun _ => .ok oneEvent) .recv = some s' → s'.viewer = s.viewer :=
  have h := viewer_shows_live_subscription .panics (fun _ => []) (fun _ => .ok oneEvent) none 0 oneDevice 0
    (Nat.zero_le _) _ _ rfl (opening ++ [.key .down false]) rfl
  ⟨_, _, rfl, rfl, rfl, rfl, h.1, (h.2.2.2 (by decide) 0 _ _ rfl).2 (by decide)⟩

end Session
end LogTui
end ZeroDowntime

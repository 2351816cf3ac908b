import VpnMgr.Client.PppEnding
import VpnMgr.Server.Lasting

/-!
# The two relays

Both `PPPDProcess` and `SSLProcess` take a read without data for the end of
the connection.
-/

namespace VpnMgr

open Machine Text CString LibUseful Server Client

/-- A relay lasts until a read reports that the connection is closed exactly
when no read merely returns no data: for each pair of the server in each run
of its loop, and for `PPPDProcess` in each run. -/
theorem relay_lasts_iff (policy : Policy) (listening : Bool) (settings : Settings) (vpn : TVpn)
    (env : Environment Client.Answer) :
    (∀ (before : List Server.Event) (server final : SslServer) (c p : Handle) (turns : List Turn),
      run (serverStep policy) (startServer listening) before = some server →
      server.streams.isOpen c = true → streamGetPeer server.streams c = some p →
      run (serverStep policy) server (turns.map Turn.event) = some final →
      (LastsUntilClosed policy server c p turns ↔ NeverIdle c p turns)) ∧
    ∀ (made : History Client.Answer) (results : List ReadResult),
      PppdRun settings vpn env made →
      results.map ReadResult.buffer = buffers (signals made) →
      (ClosesForCause results (signals made) ↔ ∀ result ∈ results, result.isIdle = false) := by
  constructor
  · intro before server final c p turns reached opened peer taken
    obtain ⟨sound, -⟩ := run_sound before reached (startServer_sound listening)
    exact lastsUntilClosed_iff sound (sound.paired opened peer) taken
  · intro made results pppdRun answered
    exact pppdRun_closesForCause_iff pppdRun answered

def oneSession : List Server.Event :=
  [.ready 0 false (.arrival { client := some noClient, table := quietTable, pppd := true })]

/-- A record without application data arrives from the client. -/
def recordWithoutData : List Turn := [.read 2 false .timeout]

theorem oneSession_runs : ∃ server final,
    run (serverStep openPolicy) (startServer true) oneSession = some server ∧
    run (serverStep openPolicy) server (recordWithoutData.map Turn.event) = some final ∧
    server.streams.isOpen 2 = true ∧ streamGetPeer server.streams 2 = some 1 := by
  have possible : ((run (serverStep openPolicy) (startServer true) oneSession).bind fun server =>
      (run (serverStep openPolicy) server (recordWithoutData.map Turn.event)).map fun _ =>
        (server.streams.isOpen 2, streamGetPeer server.streams 2)) = some (true, some 1) := by
    decide
  obtain ⟨server, reached, later⟩ := Option.bind_eq_some_iff.mp possible
  obtain ⟨final, taken, readings⟩ := Option.map_eq_some_iff.mp later
  obtain ⟨opened, peer⟩ := Prod.mk.inj readings
  exact ⟨server, final, reached, taken, opened, peer⟩

/-- A host on which the remote side is ready, without data. -/
def remoteIdleHost : Environment Client.Answer
  | _, .streamSelect => some .remotePeer
  | history, call => obligingHost history call

theorem pppdProcess_runs_idle : ∃ made,
    pppdProcess plainSettings 1 {} remoteIdleHost [] = some (.returned (), made) ∧
      signals made = [.read [], .close] := by
  have run : (pppdProcess plainSettings 1 {} remoteIdleHost []).map
      (fun ended => (ended.1, signals ended.2)) = some (.returned (), [.read [], .close]) := by
    decide +kernel
  obtain ⟨⟨ending, made⟩, ended, read⟩ := Option.map_eq_some_iff.mp run
  obtain ⟨rfl, same⟩ := Prod.mk.inj read
  exact ⟨made, ended, same⟩

theorem relay_lasts_iff_idle :
    (∃ server, LastsUntilClosed openPolicy server 2 1 recordWithoutData ↔
      NeverIdle 2 1 recordWithoutData) ∧
    ∃ made, ClosesForCause [.noData] (signals made) ↔
      ∀ result ∈ [ReadResult.noData], result.isIdle = false := by
  obtain ⟨server, final, reached, taken, opened, peer⟩ := oneSession_runs
  obtain ⟨made, ended, same⟩ := pppdProcess_runs_idle
  obtain ⟨server_lasts, pppd_lasts⟩ :=
    relay_lasts_iff openPolicy true plainSettings {} remoteIdleHost
  refine ⟨⟨server, server_lasts oneSession server final 2 1 recordWithoutData reached opened peer
    taken⟩, made, ?_⟩
  refine pppd_lasts made [.noData] (pppdRun_of_ended ended) ?_
  rw [same]
  rfl

/-- Both relays end on a read that merely returned no data. -/
theorem idle_read_ends_relay :
    (∃ server, run (serverStep openPolicy) (startServer true) oneSession = some server ∧
      server.streams.isOpen 2 = true ∧ streamGetPeer server.streams 2 = some 1 ∧
      ¬ LastsUntilClosed openPolicy server 2 1 recordWithoutData) ∧
    ∃ made, pppdProcess plainSettings 1 {} remoteIdleHost [] = some (.returned (), made) ∧
      [ReadResult.noData].map ReadResult.buffer = buffers (signals made) ∧
      ¬ ClosesForCause [.noData] (signals made) := by
  obtain ⟨server, final, reached, taken, opened, peer⟩ := oneSession_runs
  obtain ⟨made, ended, same⟩ := pppdProcess_runs_idle
  have sound := (run_sound oneSession reached (startServer_sound true)).1
  refine ⟨⟨server, reached, opened, peer, fun lasts => ?_⟩, made, ended, ?_, ?_⟩
  · have never := (lastsUntilClosed_iff sound (sound.paired opened peer) taken).mp lasts
    have notIdle := never _ List.mem_cons_self .timeout rfl
    cases notIdle
  · rw [same]
    rfl
  · rw [same]
    intro cause
    rcases cause (by simp) with told | closed
    · simp at told
    · cases closed

end VpnMgr

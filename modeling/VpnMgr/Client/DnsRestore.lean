import VpnMgr.Client.Keeping
import VpnMgr.Client.ResolvFiles

/-!
# The resolver after a run

No driver calls `ResolvRestore`: what its `VpnUp`s put into `/etc/resolv.conf`
is still there at the end.
-/

namespace VpnMgr.Client

open Machine Text CString LibUseful Command Process

/-! ## The resolver's files -/

/-- The `ResolvChange`s of a run of this process with these nameservers. -/
def dnsChanges (pid : Nat) (dns : CPtr) (made : History Answer) : List Change :=
  ((opens made).filter (·.1 = resolvTemp pid)).map fun opened => changeOf pid dns opened.2

/-- The files that a `ResolvChange` reads or writes. -/
def Watched (pid : Nat) (path : CString) : Prop :=
  path = resolvConf ∨ path = resolvSave ∨ path = resolvTemp pid

/-- The `ResolvChange`s are all that changes these files. -/
def Effected (pid : Nat) (dns : CPtr) (made : History Answer) : Prop :=
  ∀ files, Files.Agree (Watched pid) (filesAfter files made)
    ((dnsChanges pid dns made).foldl Change.apply files)

/-- And there is one for each `VpnUp`. -/
structure OnlyChanged (pid : Nat) (dns : CPtr) (made : History Answer) : Prop where
  effect : Effected pid dns made
  count : (dnsChanges pid dns made).length = (ups made).length

/-- One `ResolvChange` and no `VpnUp`. -/
structure OneChange (pid : Nat) (dns : CPtr) (made : History Answer) : Prop where
  effect : Effected pid dns made
  change : (dnsChanges pid dns made).length = 1
  noUp : ups made = []

section Dns

variable {pid : Nat} {dns : CPtr} {first second made : History Answer}

theorem dnsChanges_append :
    dnsChanges pid dns (first ++ second) = dnsChanges pid dns first ++ dnsChanges pid dns second := by
  simp [dnsChanges]

theorem dnsChanges_watched : ∀ change ∈ dnsChanges pid dns made, Watched pid change.path := by
  intro change member
  obtain ⟨opened, -, rfl⟩ := List.mem_map.mp member
  exact .inr (.inr rfl)

theorem Effected.append (effectedFirst : Effected pid dns first)
    (effectedSecond : Effected pid dns second) : Effected pid dns (first ++ second) := by
  intro files
  rw [filesAfter_append, dnsChanges_append, List.foldl_append]
  refine (effectedSecond _).trans ?_
  exact changes_agree (effectedFirst files) (.inl rfl) dnsChanges_watched

theorem OnlyChanged.append (changedFirst : OnlyChanged pid dns first)
    (changedSecond : OnlyChanged pid dns second) : OnlyChanged pid dns (first ++ second) where
  effect := changedFirst.effect.append changedSecond.effect
  count := by
    rw [dnsChanges_append, ups_append, List.length_append, List.length_append, changedFirst.count,
      changedSecond.count]

theorem composable_onlyChanged (pid : Nat) (dns : CPtr) :
    Composable (OnlyChanged pid dns) fun _ => True where
  nil := ⟨fun _ _ _ => rfl, rfl⟩
  append _ _ := OnlyChanged.append
  exits _ _ _ _ := trivial

theorem OnlyChanged.idle (files : ∀ files, Files.Agree (Watched pid) (filesAfter files made) files)
    (noOpen : ∀ opened ∈ opens made, opened.1 ≠ resolvTemp pid) (noUp : ups made = []) :
    OnlyChanged pid dns made := by
  have noChange : dnsChanges pid dns made = [] := by
    rw [dnsChanges, List.map_eq_nil_iff, List.filter_eq_nil_iff]
    simpa using fun path opened member => noOpen (path, opened) member
  exact ⟨by rw [Effected, noChange]; exact files, by rw [noChange, noUp]; rfl⟩

theorem moveOf_eq_none {text : CString} (other : commandFeature text ≠ .move) :
    moveOf text = none := by
  refine if_neg fun isMove => other ?_
  rw [commandFeature, if_pos isMove]

theorem fileEffect_eq {interaction : Sigma Answer} (noMove : featureOf interaction.1 ≠ .move)
    (noRewrite : featureOf interaction.1 ≠ .rewrite) (files : Files CString CString) :
    fileEffect files interaction = files := by
  rcases interaction with ⟨call, answer⟩
  cases call with
  | runCommand text flags =>
      rcases answer with _ | status
      · rfl
      · simp only [fileEffect, moveOf_eq_none noMove]
  | streamOpen stream url config =>
      have notWritten : config ≠ "w".toList := fun same => noRewrite (if_pos same)
      cases stream with
      | file path =>
          rcases answer with _ | _
          · rfl
          · exact if_neg notWritten
      | _ => rfl
  | streamWriteLine stream text =>
      cases stream with
      | file path => exact absurd rfl noRewrite
      | _ => rfl
  | _ => rfl

theorem openOf_feature {interaction : Sigma Answer} (opened : openOf interaction ≠ none) :
    featureOf interaction.1 = .rewrite := by
  rcases interaction with ⟨call, answer⟩
  cases call with
  | streamOpen stream url config =>
      cases stream with
      | file path =>
          by_cases written : config = "w".toList
          · exact if_pos written
          · exact absurd (if_neg written) opened
      | _ => exact absurd rfl opened
  | _ => exact absurd rfl opened

theorem filesAfter_eq {features : List Feature} (only : Only (within features) made)
    (lacks : .move ∉ features ∧ .rewrite ∉ features) (files : Files CString CString) :
    filesAfter files made = files := by
  induction made with
  | nil => rfl
  | cons interaction rest inductionHypothesis =>
      have inside := only interaction List.mem_cons_self
      have same := fileEffect_eq (featureOf_ne inside lacks.1 (by decide))
        (featureOf_ne inside lacks.2 (by decide)) files
      refine (congrArg (filesAfter · rest) same).trans (inductionHypothesis fun other member => ?_)
      exact only other (List.mem_cons_of_mem _ member)

theorem onlyChanged_of_within {features : List Feature} (only : Only (within features) made)
    (lacks : .move ∉ features ∧ .rewrite ∉ features ∧ .bracket ∉ features) :
    OnlyChanged pid dns made := by
  have noOpen : opens made = [] :=
    filterMap_eq_nil_of_within (fun _ => openOf_feature) lacks.2.1 (by decide) only
  refine OnlyChanged.idle (fun files path _ => ?_) (by simp [noOpen]) (ups_eq_nil only lacks.2.2)
  rw [filesAfter_eq only ⟨lacks.1, lacks.2.1⟩]

theorem kept_onlyChanged (pid : Nat) (dns : CPtr) :
    Kept harmlessFeatures (OnlyChanged pid dns) fun _ => True where
  composable := composable_onlyChanged pid dns
  harmless _ only := onlyChanged_of_within only (by decide)
  leaves _ _ := trivial

theorem resolvChange_oneChange (pid : Nat) (dns : CPtr) :
    (resolvChange pid dns).Yields fun _ made => OneChange pid dns made := by
  refine (resolvChange_yields pid dns).and (Uses.yields (resolvChange_touches pid dns)) |>.yields.mono
    fun _ made held => ?_
  obtain ⟨⟨opened, isOpened, effect⟩, only⟩ := held
  have changes : dnsChanges pid dns made = [changeOf pid dns opened] := by
    simp [dnsChanges, isOpened]
  refine ⟨fun files path _ => ?_, by rw [changes]; rfl, ups_eq_nil only (by decide)⟩
  rw [effect, changes]
  rfl

theorem OneChange.after (change : OneChange pid dns second) (idle : OnlyChanged pid dns first)
    (noUp : ups first = []) : OneChange pid dns (first ++ second) where
  effect := idle.effect.append change.effect
  change := by
    rw [dnsChanges_append, List.length_append, change.change, idle.count, noUp]
    rfl
  noUp := by rw [ups_append, noUp, change.noUp, List.nil_append]

theorem OneChange.before (change : OneChange pid dns first) (idle : OnlyChanged pid dns second)
    (noUp : ups second = []) : OneChange pid dns (first ++ second) where
  effect := change.effect.append idle.effect
  change := by
    rw [dnsChanges_append, List.length_append, change.change, idle.count, noUp]
    rfl
  noUp := by rw [ups_append, noUp, change.noUp, List.nil_append]

theorem netSetup_oneChange {settings : Settings} {vpn : TVpn} (dev : CString)
    (wanted : settings.globalFlags.has flagNoDns = false) (valid : strValid vpn.dns = true) :
    (netSetup settings vpn dev).Yields fun _ made => OneChange settings.pid vpn.dns made := by
  have absorbs : ∀ (_ : Unit) before made, Only (within [.addRoute]) before →
      OneChange settings.pid vpn.dns made → OneChange settings.pid vpn.dns (before ++ made) := by
    intro _ before made only change
    exact change.after (onlyChanged_of_within only (by decide)) (ups_eq_nil only (by decide))
  refine Uses.before (Uses.when (command_plain ?_)) absorbs fun _ => ?_
  · unfold ifconfigCommand
    split <;> rfl
  refine Uses.before (Uses.when (routeSetup_touches _ _)) absorbs fun _ => ?_
  simpa [Process.when, wanted, valid] using resolvChange_oneChange settings.pid vpn.dns

theorem vpnUp_onlyChanged {settings : Settings} {dns : CPtr}
    (wanted : settings.globalFlags.has flagNoDns = false) (valid : strValid dns = true) :
    UpMakes settings dns (OnlyChanged settings.pid dns) fun _ => True := by
  rintro vpn dev rfl
  refine (Ends.asked (Call.vpnUp dev)).bind fun _ entered isEntered => ?_
  refine (netSetup_oneChange dev wanted valid).bind fun _ changed change => ?_
  refine (Uses.yields (Uses.when (upDownRunFiles_touches vpn.upFile dev))).mono
    fun _ scripts only => ?_
  obtain rfl := isEntered
  have whole := change.before (onlyChanged_of_within only (by decide)) (ups_eq_nil only (by decide))
  refine ⟨fun files => whole.effect files, ?_⟩
  rw [dnsChanges_append, ups_append, List.length_append, List.length_append, whole.change, whole.noUp]
  rfl

theorem vpnDown_onlyChanged (vpn : TVpn) (dev : CString) :
    (vpnDown vpn dev).Makes (OnlyChanged pid dns) fun _ => True := by
  refine (vpnDown_ends dev).yields.mono fun _ made entered => ?_
  obtain ⟨answer, rest, rfl, only⟩ := entered
  have idle : OnlyChanged pid dns rest := onlyChanged_of_within only (by decide)
  exact ⟨fun files => idle.effect files, idle.count⟩

theorem resolvTemp_last (pid : Nat) : (resolvTemp pid).getLast? = some 'f' := by
  have last : ".resolv.conf".toList.getLast? = some 'f' := by decide
  unfold resolvTemp
  rw [List.getLast?_append, last, Option.some_or]

theorem openVpnPath_last (settings : Settings) (vpn : TVpn) :
    (openVpnPath settings vpn ".auth".toList).getLast? = some '/' ∨
      (openVpnPath settings vpn ".auth".toList).getLast? = some 'h' := by
  have slash : "/.config/vpn_mgr/".toList.getLast? = some '/' := by decide
  have extension : ".auth".toList.getLast? = some 'h' := by decide
  unfold openVpnPath
  cases vpn.name with
  | none =>
      rw [mCopyStr_some, mCopyStr_some, mCopyStr_none, List.append_nil, List.getLast?_append, slash]
      exact .inl (Option.some_or ..)
  | some name =>
      simp only [mCopyStr_some, mCopyStr_nil, List.append_nil, List.getLast?_append, extension,
        Option.some_or, or_true]

theorem openVpnPath_not_watched (settings : Settings) (vpn : TVpn) :
    ¬ Watched pid (openVpnPath settings vpn ".auth".toList) := by
  have ending := openVpnPath_last settings vpn
  rintro (isConf | isSave | isTemp)
  · rw [isConf] at ending
    exact absurd ending (by decide)
  · rw [isSave] at ending
    exact absurd ending (by decide)
  · rw [isTemp, resolvTemp_last] at ending
    exact absurd ending (by decide)

theorem password_onlyChanged (settings : Settings) (vpn : TVpn) :
    (openVpnGenPasswordFile settings vpn).Makes (OnlyChanged pid dns) fun _ => True := by
  have outside := @openVpnPath_not_watched pid settings vpn
  have elsewhere : resolvTemp pid ≠ openVpnPath settings vpn ".auth".toList :=
    fun same => outside (.inr (.inr same.symm))
  refine (Ends.asked _).bind fun opened first isFirst => ?_
  obtain rfl := isFirst
  cases opened with
  | false =>
      refine Ends.pure (OnlyChanged.idle (fun files path _ => rfl) (fun opened member => ?_) rfl)
      obtain rfl := List.mem_singleton.mp member
      exact elsewhere.symm
  | true =>
      refine (Ends.asked _).bind fun _ wrote isWritten => ?_
      refine Yields.mono (Ends.asked _) fun _ closed isClosed => ?_
      obtain rfl := isWritten
      obtain rfl := isClosed
      refine OnlyChanged.idle (fun files => ?_) (fun opened member => ?_) rfl
      · exact (Files.Agree.put_outside outside _).trans (Files.Agree.put_outside outside _)
      · obtain rfl := List.mem_singleton.mp member
        exact elsewhere.symm

end Dns

/-- `/etc/resolv.conf` is restored at the end of a run that set nameservers
exactly when the last `ResolvChange` put its old contents there. -/
theorem protocolUp_restores_dns_iff (settings : Settings) (fuel : Nat) (vpn : TVpn)
    (protocol : Protocol) (env : Environment Answer) (made : History Answer)
    (returned : protocolUp settings fuel vpn protocol env [] = some (.returned (), made))
    (wanted : settings.globalFlags.has flagNoDns = false) (valid : strValid vpn.dns = true)
    (calledUp : ups made ≠ []) (files : Files CString CString) :
    filesAfter files made resolvConf = files resolvConf ↔
      (produced files (dnsChanges settings.pid vpn.dns made)).getLast? =
        some (files resolvConf) := by
  have changed : OnlyChanged settings.pid vpn.dns made :=
    Yields.returned (protocolUp_makes (kept_onlyChanged settings.pid vpn.dns)
      (vpnUp_onlyChanged wanted valid) vpnDown_onlyChanged (password_onlyChanged settings vpn)
      protocol) returned
  have apart : ∀ change ∈ dnsChanges settings.pid vpn.dns made, Apart change.path := by
    intro change member
    obtain ⟨opened, -, rfl⟩ := List.mem_map.mp member
    exact apart_resolvTemp _
  have some_change : dnsChanges settings.pid vpn.dns made ≠ [] := by
    intro none
    have count := changed.count
    rw [none, List.length_nil, eq_comm, List.length_eq_zero_iff] at count
    exact calledUp count
  rw [changed.effect files resolvConf (.inl rfl), changes_conf apart]
  obtain ⟨change, rest, split⟩ := List.exists_cons_of_ne_nil some_change
  rw [split, produced, List.getLast?_cons, Option.getD_some, Option.some_inj]

def dnsVpn : TVpn := { dev := some "wg0".toList, dns := some "10.0.0.1".toList }

theorem dnsVpn_runs (contents : CString)
    (runs : (protocolUp plainSettings 1 dnsVpn .wireguard obligingHost []).map
      (fun ended => (ended.1, ups ended.2, filesAfter (onlyResolv contents) ended.2 resolvConf,
        produced (onlyResolv contents) (dnsChanges plainSettings.pid dnsVpn.dns ended.2))) =
      some (.returned (), ["wg0".toList], some "nameserver 10.0.0.1\n".toList,
        [some "nameserver 10.0.0.1\n".toList])) :
    ∃ made, protocolUp plainSettings 1 dnsVpn .wireguard obligingHost [] =
        some (.returned (), made) ∧ ups made = ["wg0".toList] ∧
      filesAfter (onlyResolv contents) made resolvConf =
        some "nameserver 10.0.0.1\n".toList ∧
      produced (onlyResolv contents) (dnsChanges plainSettings.pid dnsVpn.dns made) =
        [some "nameserver 10.0.0.1\n".toList] := by
  obtain ⟨⟨ending, made⟩, ended, read⟩ := Option.map_eq_some_iff.mp runs
  simp only [Prod.mk.injEq] at read
  obtain ⟨rfl, entered, final, texts⟩ := read
  exact ⟨made, ended, entered, final, texts⟩

/-- The connection is closed where its nameserver was there before. -/
theorem protocolUp_restores_dns_iff_wireguard :
    ∃ made, ups made = ["wg0".toList] ∧
      filesAfter (onlyResolv "nameserver 10.0.0.1\n".toList) made resolvConf =
        onlyResolv "nameserver 10.0.0.1\n".toList resolvConf := by
  obtain ⟨made, ended, entered, -, texts⟩ :=
    dnsVpn_runs "nameserver 10.0.0.1\n".toList (by decide +kernel)
  have called : ups made ≠ [] := by
    rw [entered]
    exact List.cons_ne_nil _ _
  refine ⟨made, entered, (protocolUp_restores_dns_iff _ _ _ _ _ _ ended (by decide) (by decide)
    called _).mpr ?_⟩
  rw [texts]
  rfl

/-- The connection is closed, and the nameserver stays. -/
theorem wireguardUp_keeps_nameserver :
    ∃ made, protocolUp plainSettings 1 dnsVpn .wireguard obligingHost [] =
        some (.returned (), made) ∧ ups made ≠ [] ∧
      filesAfter oldResolv made resolvConf ≠ oldResolv resolvConf := by
  obtain ⟨made, ended, entered, final, -⟩ := dnsVpn_runs "old".toList (by decide +kernel)
  refine ⟨made, ended, by rw [entered]; exact List.cons_ne_nil _ _, ?_⟩
  exact ne_of_eq_of_ne final (by decide)

end VpnMgr.Client

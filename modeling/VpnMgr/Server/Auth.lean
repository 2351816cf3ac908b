import VpnMgr.Ctx
import VpnMgr.LibUseful.StringList

/-!
# Client authorization of the TLS server

`SSLAuth` collects two bits, one for a verified certificate and one for the
configured requirement, and admits a client that has both.  `Admits` is the
documented policy, stated on the items of a comma-separated list.
-/

namespace VpnMgr.Server

open Machine Text CString LibUseful

/-- The values `SSLAuth` reads off the accepted stream. -/
structure ClientInfo where
  /-- `PeerIP`. -/
  peerIP : CString
  /-- `SSL:CertificateCommonName`. -/
  commonName : CPtr
  /-- `SSL:CertificateVerify`. -/
  certificateVerify : CPtr
  deriving DecidableEq

def sslAuthCertificate : FlagWord := 1

def sslAuthUser : FlagWord := 2

def sslAuthOkay : FlagWord := 3

/-- The text after a keyword of `word`'s length, leading blanks dropped. -/
def authList (word serverAuth : CString) : CString := skipSpace (serverAuth.drop word.length)

/-- The first block of `SSLAuth`: has the certificate been verified? -/
def certificateFlags (client : ClientInfo) : FlagWord :=
  if strValid client.commonName && strValid client.certificateVerify &&
      copyStr client.certificateVerify = "OK".toList then sslAuthCertificate
  else 0

/-- The chain of `else if` of `SSLAuth`, entered for a client with a name. -/
def namedClientFlags (passwd : CString → Bool) (serverAuth userName peerIP : CString) : FlagWord :=
  if equalStrNoCase (some serverAuth) (some "cert".toList) then sslAuthUser
  else if equalStrNoCase (some serverAuth) (some "system".toList) then
    if passwd userName then sslAuthUser else 0
  else if hasPrefixNoCase "users:".toList serverAuth then
    if inStringList userName (authList "users:".toList serverAuth) [','] then sslAuthUser
    else 0
  else if hasPrefixNoCase "ips:".toList serverAuth then
    if inStringList peerIP (authList "ips:".toList serverAuth) [','] then sslAuthUser
    else 0
  else if hasPrefixNoCase "ip-only:".toList serverAuth then
    if inStringList peerIP (authList "ip-only:".toList serverAuth) [','] then sslAuthOkay
    else 0
  else 0

/-- The second block of `SSLAuth`: what `ServerAuth` asks for. -/
def requirementFlags (passwd : CString → Bool) (serverAuth : CPtr) (client : ClientInfo) :
    FlagWord :=
  if strValid serverAuth then
    (if equalStrNoCase serverAuth (some "open".toList) then sslAuthOkay else 0) |||
    (if strValid client.commonName then
      namedClientFlags passwd (copyStr serverAuth) (copyStr client.commonName) client.peerIP
    else 0)
  else sslAuthUser

/-- `SSLAuth`; `passwd` is `getpwnam`. -/
def sslAuth (passwd : CString → Bool) (serverAuth : CPtr) (client : ClientInfo) : Bool :=
  certificateFlags client ||| requirementFlags passwd serverAuth client = sslAuthOkay

def Verified (client : ClientInfo) : Prop :=
  strValid client.commonName = true ∧ client.certificateVerify = some "OK".toList

/-- `serverAuth` is `word` followed by a list that has the item `item`. -/
def Lists (word serverAuth item : CString) : Prop :=
  hasPrefixNoCase word serverAuth = true ∧ item ∈ (authList word serverAuth).splitOn ','

/-- The keyword `word`, in any case. -/
def IsKeyword (word : CString) (serverAuth : CPtr) : Prop :=
  ∃ text, serverAuth = some text ∧ sameNoCase text word = true

/-- The policy of the `-auth` option. -/
inductive Admits (passwd : CString → Bool) (serverAuth : CPtr) (client : ClientInfo) : Prop where
  | anyone (keyword : IsKeyword "open".toList serverAuth)
  | address (text : CString) (given : serverAuth = some text)
      (listed : Lists "ip-only:".toList text client.peerIP)
  | certificate (verified : Verified client)
      (unrestricted : strValid serverAuth = false ∨ IsKeyword "cert".toList serverAuth)
  | systemUser (verified : Verified client) (keyword : IsKeyword "system".toList serverAuth)
      (known : passwd (copyStr client.commonName) = true)
  | listedUser (verified : Verified client) (text : CString) (given : serverAuth = some text)
      (listed : Lists "users:".toList text (copyStr client.commonName))
  | listedAddress (verified : Verified client) (text : CString) (given : serverAuth = some text)
      (listed : Lists "ips:".toList text client.peerIP)

theorem verified_of_certificateFlags {client : ClientInfo}
    (raised : certificateFlags client ≠ 0) : Verified client := by
  simp only [certificateFlags, ne_eq, ite_eq_right_iff, Classical.not_imp, Bool.and_eq_true,
    decide_eq_true_eq] at raised
  obtain ⟨⟨⟨named, reported⟩, status⟩, -⟩ := raised
  refine ⟨named, ?_⟩
  obtain ⟨text, given, -⟩ := (strValid_iff _).mp reported
  rw [given] at status ⊢
  exact congrArg some status

theorem certificateFlags_cases (client : ClientInfo) :
    certificateFlags client = 0 ∨
      certificateFlags client = sslAuthCertificate ∧ Verified client := by
  by_cases zero : certificateFlags client = 0
  · exact Or.inl zero
  · refine Or.inr ⟨?_, verified_of_certificateFlags zero⟩
    simp only [certificateFlags] at zero ⊢
    split <;> simp_all

theorem isKeyword_of_equalStrNoCase {word serverAuth : CString} (nonempty : word ≠ [])
    (equal : equalStrNoCase (some serverAuth) (some word) = true) :
    IsKeyword word (some serverAuth) := by
  refine ⟨serverAuth, rfl, ?_⟩
  simp only [equalStrNoCase, (strValid_some_iff word).mpr nonempty] at equal
  split at equal <;> simp_all

theorem lists_of_inStringList {word serverAuth item : CString}
    (keyword : hasPrefixNoCase word serverAuth = true)
    (found : inStringList item (authList word serverAuth) [','] = true) :
    Lists word serverAuth item :=
  ⟨keyword, mem_splitOn_of_inStringList found⟩

def MeetsRequirement (passwd : CString → Bool) (serverAuth userName peerIP : CString) : Prop :=
  IsKeyword "cert".toList (some serverAuth) ∨
    (IsKeyword "system".toList (some serverAuth) ∧ passwd userName = true) ∨
    Lists "users:".toList serverAuth userName ∨ Lists "ips:".toList serverAuth peerIP

/-- The chain raises the user bit for a met requirement, and both bits only
for an address that `ip-only:` lists. -/
theorem namedClientFlags_cases (passwd : CString → Bool) (serverAuth userName peerIP : CString) :
    let flags := namedClientFlags passwd serverAuth userName peerIP
    flags = 0 ∨ (flags = sslAuthUser ∧ MeetsRequirement passwd serverAuth userName peerIP) ∨
      (flags = sslAuthOkay ∧ Lists "ip-only:".toList serverAuth peerIP) := by
  intro flags
  simp only [flags, namedClientFlags]
  split
  next cert =>
    exact Or.inr (Or.inl ⟨rfl, Or.inl (isKeyword_of_equalStrNoCase (by decide) cert)⟩)
  split
  next system =>
    split
    next known =>
      have keyword := isKeyword_of_equalStrNoCase (by decide) system
      exact Or.inr (Or.inl ⟨rfl, Or.inr (Or.inl ⟨keyword, known⟩)⟩)
    next => exact Or.inl rfl
  split
  next users =>
    split
    next found =>
      have listed := lists_of_inStringList users found
      exact Or.inr (Or.inl ⟨rfl, Or.inr (Or.inr (Or.inl listed))⟩)
    next => exact Or.inl rfl
  split
  next ips =>
    split
    next found =>
      have listed := lists_of_inStringList ips found
      exact Or.inr (Or.inl ⟨rfl, Or.inr (Or.inr (Or.inr listed))⟩)
    next => exact Or.inl rfl
  split
  next ipOnly =>
    split
    next found => exact Or.inr (Or.inr ⟨rfl, lists_of_inStringList ipOnly found⟩)
    next => exact Or.inl rfl
  next => exact Or.inl rfl

theorem MeetsRequirement.admits {passwd : CString → Bool} {serverAuth : CString}
    {client : ClientInfo} (verified : Verified client)
    (requirement :
      MeetsRequirement passwd serverAuth (copyStr client.commonName) client.peerIP) :
    Admits passwd (some serverAuth) client := by
  rcases requirement with cert | ⟨system, known⟩ | users | ips
  · exact .certificate verified (Or.inr cert)
  · exact .systemUser verified system known
  · exact .listedUser verified serverAuth rfl users
  · exact .listedAddress verified serverAuth rfl ips

/-- The requirement block alone admits by `open` and by a listed address; with
the user bit the certificate bit must join. -/
theorem requirementFlags_cases (passwd : CString → Bool) (serverAuth : CPtr)
    (client : ClientInfo) :
    let flags := requirementFlags passwd serverAuth client
    flags = 0 ∨ (flags = sslAuthUser ∧ (Verified client → Admits passwd serverAuth client)) ∨
      (flags = sslAuthOkay ∧ Admits passwd serverAuth client) := by
  intro flags
  simp only [flags, requirementFlags]
  split
  next given =>
    obtain ⟨text, rfl, nonempty⟩ := (strValid_iff serverAuth).mp given
    by_cases anyone : equalStrNoCase (some text) (some "open".toList) = true
    · have keyword := isKeyword_of_equalStrNoCase (by decide) anyone
      refine Or.inr (Or.inr ⟨?_, .anyone keyword⟩)
      rw [if_pos anyone]
      split
      · rcases namedClientFlags_cases passwd (copyStr (some text)) (copyStr client.commonName)
            client.peerIP with value | ⟨value, -⟩ | ⟨value, -⟩ <;> rw [value] <;> decide
      · decide
    · rw [if_neg anyone, FlagWord.zero_or]
      split
      · rcases namedClientFlags_cases passwd (copyStr (some text)) (copyStr client.commonName)
            client.peerIP with zero | ⟨user, requirement⟩ | ⟨okay, listed⟩
        · exact Or.inl zero
        · exact Or.inr (Or.inl ⟨user, fun verified => requirement.admits verified⟩)
        · exact Or.inr (Or.inr ⟨okay, .address text rfl listed⟩)
      · exact Or.inl rfl
  next absent =>
    have unrestricted : strValid serverAuth = false := by simpa using absent
    exact Or.inr (Or.inl ⟨rfl, fun verified => .certificate verified (Or.inl unrestricted)⟩)

/-- Only a client that the documented policy admits is authorized. -/
theorem sslAuth_sound (passwd : CString → Bool) (serverAuth : CPtr) (client : ClientInfo)
    (authorized : sslAuth passwd serverAuth client = true) :
    Admits passwd serverAuth client := by
  simp only [sslAuth, decide_eq_true_eq] at authorized
  rcases requirementFlags_cases passwd serverAuth client with
    none | ⟨user, verifiedAdmits⟩ | ⟨-, admits⟩
  · rcases certificateFlags_cases client with zero | ⟨certificate, -⟩
    · exact absurd authorized (by rw [none, zero]; decide)
    · exact absurd authorized (by rw [none, certificate]; decide)
  · rcases certificateFlags_cases client with zero | ⟨-, verified⟩
    · exact absurd authorized (by rw [user, zero]; decide)
    · exact verifiedAdmits verified
  · exact admits

/-- A verified client named in the second item of a list. -/
theorem sslAuth_sound_listed :
    Admits (fun _ => false) (some "Users: alice,bob".toList)
      ⟨"10.0.0.9".toList, some "bob".toList, some "OK".toList⟩ :=
  sslAuth_sound _ _ _ (by decide)

/-! ## Completeness -/

/-- An item of the list behind `word`. -/
def ListsItem (word serverAuth item : CString) : Prop :=
  Lists word serverAuth item ∧ item ≠ []

/-- Whom the documentation of `-auth` lets in.  A certificate verifies whether
or not it names its holder. -/
inductive Promised (passwd : CString → Bool) (serverAuth : CPtr) (client : ClientInfo) : Prop where
  | anyone (keyword : IsKeyword "open".toList serverAuth)
  | address (text : CString) (given : serverAuth = some text)
      (listed : ListsItem "ip-only:".toList text client.peerIP)
  | certificate (verifies : client.certificateVerify = some "OK".toList)
      (unrestricted : strValid serverAuth = false ∨ IsKeyword "cert".toList serverAuth)
  | systemUser (verifies : client.certificateVerify = some "OK".toList)
      (keyword : IsKeyword "system".toList serverAuth)
      (known : passwd (copyStr client.commonName) = true)
  | listedUser (verifies : client.certificateVerify = some "OK".toList) (text : CString)
      (given : serverAuth = some text)
      (listed : ListsItem "users:".toList text (copyStr client.commonName))
  | listedAddress (verifies : client.certificateVerify = some "OK".toList) (text : CString)
      (given : serverAuth = some text) (listed : ListsItem "ips:".toList text client.peerIP)

def StartsWith (word text : CString) : Prop := word.map Char.toLower <+: text.map Char.toLower

theorem startsWith_of_hasPrefixNoCase {word text : CString}
    (keyword : hasPrefixNoCase word text = true) : StartsWith word text := by
  have same : (text.take word.length).map Char.toLower = word.map Char.toLower := by
    simpa [hasPrefixNoCase, sameNoCase] using keyword
  rw [StartsWith, ← same]
  exact (List.take_prefix _ _).map _

theorem startsWith_of_sameNoCase {word text : CString} (keyword : sameNoCase text word = true) :
    StartsWith word text := by
  have same : text.map Char.toLower = word.map Char.toLower := by
    simpa [sameNoCase] using keyword
  exact ⟨[], by rw [List.append_nil, same]⟩

theorem not_startsWith {word other text : CString} (keyword : StartsWith word text)
    (different : ¬ word.map Char.toLower <+: other.map Char.toLower ∧
      ¬ other.map Char.toLower <+: word.map Char.toLower) : ¬ StartsWith other text := fun also =>
  (List.prefix_or_prefix_of_prefix keyword also).elim different.1 different.2

theorem equalStrNoCase_iff {word text : CString} (nonempty : word ≠ []) :
    equalStrNoCase (some text) (some word) = true ↔ sameNoCase text word = true := by
  constructor
  · intro equal
    obtain ⟨given, same, keyword⟩ := isKeyword_of_equalStrNoCase nonempty equal
    exact Option.some.inj same ▸ keyword
  · intro same
    have given : text ≠ [] := by
      rintro rfl
      have : ([] : CString) = word.map Char.toLower := by simpa [sameNoCase] using same
      exact nonempty (List.map_eq_nil_iff.mp this.symm)
    simp [equalStrNoCase, (strValid_some_iff _).mpr nonempty, (strValid_some_iff _).mpr given, same]

theorem not_equalStrNoCase {word other text : CString} (nonempty : other ≠ [])
    (keyword : StartsWith word text)
    (different : ¬ word.map Char.toLower <+: other.map Char.toLower ∧
      ¬ other.map Char.toLower <+: word.map Char.toLower) :
    equalStrNoCase (some text) (some other) = false := by
  rw [Bool.eq_false_iff]
  exact fun equal => not_startsWith keyword different
    (startsWith_of_sameNoCase ((equalStrNoCase_iff nonempty).mp equal))

theorem not_hasPrefixNoCase {word other text : CString} (keyword : StartsWith word text)
    (different : ¬ word.map Char.toLower <+: other.map Char.toLower ∧
      ¬ other.map Char.toLower <+: word.map Char.toLower) :
    hasPrefixNoCase other text = false := by
  rw [Bool.eq_false_iff]
  exact fun equal => not_startsWith keyword different (startsWith_of_hasPrefixNoCase equal)

theorem ListsItem.found {word text item : CString} (listed : ListsItem word text item) :
    inStringList item (authList word text) [','] = true :=
  inStringList_of_mem_splitOn listed.2 listed.1.2

section NamedClient

variable {passwd : CString → Bool} {text userName peerIP : CString}

theorem namedClientFlags_cert (keyword : IsKeyword "cert".toList (some text)) :
    namedClientFlags passwd text userName peerIP = sslAuthUser := by
  obtain ⟨_, given, same⟩ := keyword
  obtain rfl := Option.some.inj given
  exact if_pos ((equalStrNoCase_iff (by decide)).mpr same)

theorem namedClientFlags_system (keyword : IsKeyword "system".toList (some text))
    (known : passwd userName = true) :
    namedClientFlags passwd text userName peerIP = sslAuthUser := by
  obtain ⟨_, given, same⟩ := keyword
  obtain rfl := Option.some.inj given
  have starts := startsWith_of_sameNoCase same
  rw [namedClientFlags, not_equalStrNoCase (by decide) starts (by decide),
    (equalStrNoCase_iff (by decide)).mpr same, known]
  rfl

theorem namedClientFlags_users (listed : ListsItem "users:".toList text userName) :
    namedClientFlags passwd text userName peerIP = sslAuthUser := by
  have starts := startsWith_of_hasPrefixNoCase listed.1.1
  rw [namedClientFlags, not_equalStrNoCase (by decide) starts (by decide),
    not_equalStrNoCase (by decide) starts (by decide), listed.1.1, listed.found]
  rfl

theorem namedClientFlags_ips (listed : ListsItem "ips:".toList text peerIP) :
    namedClientFlags passwd text userName peerIP = sslAuthUser := by
  have starts := startsWith_of_hasPrefixNoCase listed.1.1
  rw [namedClientFlags, not_equalStrNoCase (by decide) starts (by decide),
    not_equalStrNoCase (by decide) starts (by decide), not_hasPrefixNoCase starts (by decide),
    listed.1.1, listed.found]
  rfl

theorem namedClientFlags_ipOnly (listed : ListsItem "ip-only:".toList text peerIP) :
    namedClientFlags passwd text userName peerIP = sslAuthOkay := by
  have starts := startsWith_of_hasPrefixNoCase listed.1.1
  rw [namedClientFlags, not_equalStrNoCase (by decide) starts (by decide),
    not_equalStrNoCase (by decide) starts (by decide), not_hasPrefixNoCase starts (by decide),
    not_hasPrefixNoCase starts (by decide), listed.1.1, listed.found]
  rfl

end NamedClient

theorem StartsWith.nonempty {word text : CString} (starts : StartsWith word text)
    (given : word ≠ []) : text ≠ [] := by
  rintro rfl
  exact given (List.map_eq_nil_iff.mp (List.prefix_nil.mp starts))

section Complete

variable {passwd : CString → Bool} {client : ClientInfo}

theorem certificateFlags_verified (named : strValid client.commonName = true)
    (verifies : client.certificateVerify = some "OK".toList) :
    certificateFlags client = sslAuthCertificate := by
  simp only [certificateFlags, named, verifies]
  rfl

theorem certificateFlags_or_okay (client : ClientInfo) :
    certificateFlags client ||| sslAuthOkay = sslAuthOkay := by
  rcases certificateFlags_cases client with zero | ⟨certificate, -⟩
  · rw [zero]
    rfl
  · rw [certificate]
    rfl

theorem requirementFlags_open {serverAuth : CPtr} (keyword : IsKeyword "open".toList serverAuth) :
    requirementFlags passwd serverAuth client = sslAuthOkay := by
  obtain ⟨text, rfl, same⟩ := keyword
  have given := (startsWith_of_sameNoCase same).nonempty (by decide)
  rw [requirementFlags, if_pos ((strValid_some_iff text).mpr given),
    if_pos ((equalStrNoCase_iff (by decide)).mpr same)]
  split
  · rcases namedClientFlags_cases passwd (copyStr (some text)) (copyStr client.commonName)
      client.peerIP with value | ⟨value, -⟩ | ⟨value, -⟩ <;> rw [value] <;> decide
  · decide

theorem requirementFlags_named {text : CString} (named : strValid client.commonName = true)
    {word : CString} (starts : StartsWith word text) (given : word ≠ [])
    (notOpen : ¬ word.map Char.toLower <+: "open".toList.map Char.toLower ∧
      ¬ "open".toList.map Char.toLower <+: word.map Char.toLower) :
    requirementFlags passwd (some text) client =
      namedClientFlags passwd text (copyStr client.commonName) client.peerIP := by
  rw [requirementFlags, if_pos ((strValid_some_iff text).mpr (starts.nonempty given)),
    not_equalStrNoCase (by decide) starts notOpen, if_neg (by decide), if_pos named,
    FlagWord.zero_or, copyStr_some]

end Complete

theorem open_or_named {passwd : CString → Bool} {serverAuth : CPtr} {client : ClientInfo}
    (authorized : sslAuth passwd serverAuth client = true) :
    IsKeyword "open".toList serverAuth ∨ strValid client.commonName = true := by
  by_contra neither
  rw [not_or, Bool.not_eq_true] at neither
  obtain ⟨notOpen, unnamed⟩ := neither
  have nothing : certificateFlags client = 0 := by simp [certificateFlags, unnamed]
  rw [sslAuth, decide_eq_true_eq, nothing, FlagWord.zero_or, requirementFlags] at authorized
  split at authorized
  next given =>
    obtain ⟨text, rfl, nonempty⟩ := (strValid_iff serverAuth).mp given
    split at authorized
    next anyone => exact notOpen (isKeyword_of_equalStrNoCase (by decide) anyone)
    next =>
      rw [unnamed, if_neg (by decide)] at authorized
      exact absurd authorized (by decide)
  next => exact absurd authorized (by decide)

/-- A promised client is let in exactly if its certificate names somebody, or
nobody is refused. -/
theorem sslAuth_complete_iff (passwd : CString → Bool) (serverAuth : CPtr) (client : ClientInfo)
    (promised : Promised passwd serverAuth client) :
    sslAuth passwd serverAuth client = true ↔
      IsKeyword "open".toList serverAuth ∨ strValid client.commonName = true := by
  refine ⟨open_or_named, ?_⟩
  simp only [sslAuth, decide_eq_true_eq]
  rintro (anyone | named)
  · rw [requirementFlags_open anyone, certificateFlags_or_okay]
  · cases promised with
    | anyone keyword => rw [requirementFlags_open keyword, certificateFlags_or_okay]
    | address text given listed =>
        subst given
        rw [requirementFlags_named named (startsWith_of_hasPrefixNoCase listed.1.1) (by decide)
          (by decide), namedClientFlags_ipOnly listed, certificateFlags_or_okay]
    | certificate verifies unrestricted =>
        rw [certificateFlags_verified named verifies]
        rcases unrestricted with absent | keyword
        · rw [requirementFlags, if_neg (by simp [absent])]
          rfl
        · obtain ⟨text, rfl, same⟩ := keyword
          rw [requirementFlags_named named (startsWith_of_sameNoCase same) (by decide)
            (by decide), namedClientFlags_cert ⟨text, rfl, same⟩]
          rfl
    | systemUser verifies keyword known =>
        obtain ⟨text, rfl, same⟩ := keyword
        rw [certificateFlags_verified named verifies,
          requirementFlags_named named (startsWith_of_sameNoCase same) (by decide) (by decide),
          namedClientFlags_system ⟨text, rfl, same⟩ known]
        rfl
    | listedUser verifies text given listed =>
        subst given
        rw [certificateFlags_verified named verifies,
          requirementFlags_named named (startsWith_of_hasPrefixNoCase listed.1.1) (by decide)
            (by decide), namedClientFlags_users listed]
        rfl
    | listedAddress verifies text given listed =>
        subst given
        rw [certificateFlags_verified named verifies,
          requirementFlags_named named (startsWith_of_hasPrefixNoCase listed.1.1) (by decide)
            (by decide), namedClientFlags_ips listed]
        rfl

/-- A verified client named in a list. -/
theorem sslAuth_complete_listed :
    sslAuth (fun _ => false) (some "users:alice,bob".toList)
      ⟨"10.0.0.9".toList, some "bob".toList, some "OK".toList⟩ = true :=
  (sslAuth_complete_iff _ _ _ (.listedUser rfl _ rfl ⟨⟨by decide, by decide⟩, by decide⟩)).mpr
    (.inr (by decide))

/-- A client without a certificate, from a trusted address. -/
def trustedAddress : ClientInfo :=
  { peerIP := "10.0.0.9".toList, commonName := none, certificateVerify := none }

/-- `ip-only:` turns it away. -/
theorem ipOnly_refuses_trustedAddress :
    Promised (fun _ => false) (some "ip-only:10.0.0.9".toList) trustedAddress ∧
      sslAuth (fun _ => false) (some "ip-only:10.0.0.9".toList) trustedAddress = false :=
  ⟨.address _ rfl ⟨⟨by decide, by decide⟩, by decide⟩, by decide⟩

end VpnMgr.Server

import OpenEverest.Api.DatabaseCluster
import OpenEverest.Framework.Uri

/-!
# Connection URLs

The URL with which a cluster is reached: its user is written as it is, its password escaped
as a query component, and its host joined with the port.
-/

namespace OpenEverest.K8s

open Framework GoString Uri Api

structure ConnectedCluster where
  engineType : GoString
  shardingEnabled : Bool
  hostname : GoString
  port : Int

/-- `fmt.Sprint` of an integer. -/
def sprintInt (n : Int) : GoString := (if n < 0 then ascii "-" else []) ++ decimal n.natAbs

/-- `net.JoinHostPort`, which takes a host with a colon for a literal address. -/
def joinHostPort (host port : GoString) : GoString :=
  if 58 ∈ host then ascii "[" ++ host ++ ascii "]:" ++ port else host ++ ascii ":" ++ port

def queryEscapedURL (scheme user password hosts : GoString) : GoString :=
  scheme ++ ascii "://" ++ user ++ ascii ":" ++ queryEscape password ++ ascii "@" ++ hosts

def psmdbHosts (db : ConnectedCluster) : GoString :=
  if db.shardingEnabled then joinHostPort db.hostname (sprintInt db.port) else db.hostname

/-- `none` where the cluster has no host; the URL of another engine is empty. -/
def connectionURL (db : ConnectedCluster) (user password : GoString) : Option GoString :=
  if db.hostname = [] then none
  else
    let defaultHost := joinHostPort db.hostname (sprintInt db.port)
    some <|
      if db.engineType = databaseEnginePXC then
        queryEscapedURL (ascii "jdbc:mysql") user password defaultHost
      else if db.engineType = databaseEnginePSMDB then
        queryEscapedURL (ascii "mongodb") user password (psmdbHosts db)
      else if db.engineType = databaseEnginePostgresql then
        queryEscapedURL (ascii "postgres") user password defaultHost
      else []

def hostString (db : ConnectedCluster) : GoString :=
  if db.engineType = databaseEnginePSMDB then psmdbHosts db
  else joinHostPort db.hostname (sprintInt db.port)

/-- A host that can be joined with a port; one with a colon is put in brackets. -/
def JoinsPort (host : GoString) : Prop :=
  if 58 ∈ host then isIPLiteral host = true else isHost host = true

theorem sprintInt_bytes (n : Int) : ∀ b ∈ sprintInt n, b = 45 ∨ Uri.isDigit b = true := by
  intro b hb
  rcases List.mem_append.mp hb with hb | hb
  · split at hb
    · exact .inl (List.mem_singleton.mp hb)
    · cases hb
  · exact .inr (decide_eq_true (decimal_bytes _ b hb))

theorem sprintInt_digits (n : Int) : (∀ b ∈ sprintInt n, Uri.isDigit b = true) ↔ 0 ≤ n := by
  constructor
  · intro h
    by_contra hneg
    have hminus : (45 : UInt8) ∈ sprintInt n := by
      rw [sprintInt, if_pos (by omega)]
      exact List.mem_append_left _ (List.mem_singleton_self _)
    have hdigit := h 45 hminus
    revert hdigit
    decide
  · intro hn b hb
    rw [sprintInt, if_neg (by omega), List.nil_append] at hb
    exact decide_eq_true (decimal_bytes _ b hb)

theorem sprintInt_ne_nil (n : Int) : sprintInt n ≠ [] := by
  intro h
  have hread := parseUint_decimal n.natAbs
  rw [(List.append_eq_nil_iff.mp h).2] at hread
  cases hread

/-- Joining gives a host and a port exactly for a host that takes one and a port that is
not negative. -/
theorem isHostPort_joinHostPort (host : GoString) (n : Int) :
    isHostPort (joinHostPort host (sprintInt n)) = true ↔ 0 ≤ n ∧ JoinsPort host := by
  have hsep : ∀ b ∈ sprintInt n, b ≠ 58 ∧ b ≠ 93 := by
    intro b hb
    rcases sprintInt_bytes n b hb with rfl | hb
    · decide
    · exact Uri.isDigit_ne hb
  have hcolon : 58 ∉ sprintInt n := fun h => (hsep 58 h).1 rfl
  have hlast : (sprintInt n).getLast? ≠ some 93 := fun h =>
    (hsep 93 (List.mem_of_getLast? h)).2 rfl
  have hjoin (name : GoString) : isHostPort (name ++ 58 :: sprintInt n) = true ↔
      0 ≤ n ∧ isHost name = true := by
    rw [isHostPort_append name _ (sprintInt_ne_nil n) hcolon hlast, sprintInt_digits, and_comm]
  rw [joinHostPort, JoinsPort]
  split
  · have hbrackets : ascii "[" ++ host ++ ascii "]:" ++ sprintInt n =
        (91 :: host ++ [93]) ++ 58 :: sprintInt n := by
      have hopen : ascii "[" = [91] := rfl
      have hclose : ascii "]:" = [93, 58] := rfl
      simp only [hopen, hclose, List.append_assoc, List.cons_append, List.nil_append]
    rw [hbrackets, hjoin, isHost_brackets]
  · have hplain : host ++ ascii ":" ++ sprintInt n = host ++ 58 :: sprintInt n := by
      rw [List.append_assoc]
      rfl
    rw [hplain, hjoin]

/-- The host string is one of the generic syntax: a MongoDB cluster without sharding gives it
as it is to be written, every other cluster has its hostname joined with its port. -/
def HostReadable (db : ConnectedCluster) : Prop :=
  if db.engineType = databaseEnginePSMDB ∧ db.shardingEnabled = false then
    isHostPort db.hostname = true
  else 0 ≤ db.port ∧ JoinsPort db.hostname

theorem isHostPort_hostString (db : ConnectedCluster) :
    isHostPort (hostString db) = true ↔ HostReadable db := by
  rw [hostString, psmdbHosts, HostReadable]
  by_cases htype : db.engineType = databaseEnginePSMDB
  · cases hsharding : db.shardingEnabled with
    | true => simpa [htype] using isHostPort_joinHostPort ..
    | false => simp [htype]
  · simpa [htype] using isHostPort_joinHostPort ..

/-- JDBC's own prefix comes before the URL that its drivers read. -/
def withoutJDBC (url : GoString) : GoString := if ascii "jdbc:" <+: url then url.drop 5 else url

/-- The user is written as it reads, the password has no space, and the host reads as one. -/
structure Readable (db : ConnectedCluster) (user password : GoString) : Prop where
  user : ∀ b ∈ user, isPlain b = true
  password : 32 ∉ password
  host : HostReadable db

theorem login_queryEscapedURL (scheme user password hosts : GoString) (hne : scheme ≠ [])
    (hscheme : ∀ b ∈ scheme, b ≠ 58 ∧ isDelim b = false) :
    login (queryEscapedURL scheme user password hosts) = some ⟨user, password, hosts⟩ ↔
      (∀ b ∈ user, isPlain b = true) ∧ 32 ∉ password ∧ isHostPort hosts = true := by
  have hurl : queryEscapedURL scheme user password hosts =
      scheme ++ ascii "://" ++ (user ++ 58 :: queryEscape password ++ 64 :: hosts) := by
    have hcolon : ascii ":" = [58] := rfl
    have hat : ascii "@" = [64] := rfl
    simp only [queryEscapedURL, hcolon, hat, List.append_assoc, List.cons_append, List.nil_append]
  rw [hurl]
  exact login_written scheme user password hosts hne hscheme

/-- All of `jdbc:` is a scheme, and no authority follows it. -/
theorem login_jdbc (user password hosts : GoString) :
    login (queryEscapedURL (ascii "jdbc:mysql") user password hosts) = none := rfl

theorem withoutJDBC_jdbc (user password hosts : GoString) :
    withoutJDBC (queryEscapedURL (ascii "jdbc:mysql") user password hosts) =
      queryEscapedURL (ascii "mysql") user password hosts := rfl

theorem readable_iff (db : ConnectedCluster) (user password : GoString) :
    Readable db user password ↔ (∀ b ∈ user, isPlain b = true) ∧ 32 ∉ password ∧
      isHostPort (hostString db) = true := by
  rw [isHostPort_hostString]
  exact ⟨fun h => ⟨h.user, h.password, h.host⟩, fun h => ⟨h.1, h.2.1, h.2.2⟩⟩

/-- The URL gives the login back exactly where it is readable; a URL of JDBC is read without
its prefix, since as a whole it has no authority. -/
theorem connectionURL_login_iff (db : ConnectedCluster) (user password : GoString)
    (hhost : db.hostname ≠ []) (hengine : db.engineType = databaseEnginePXC ∨
      db.engineType = databaseEnginePSMDB ∨ db.engineType = databaseEnginePostgresql) :
    ∃ url, connectionURL db user password = some url ∧
      (login (withoutJDBC url) = some ⟨user, password, hostString db⟩ ↔
        Readable db user password) ∧
      (login url = some ⟨user, password, hostString db⟩ ↔
        db.engineType ≠ databaseEnginePXC ∧ Readable db user password) := by
  have hpsmdb : databaseEnginePSMDB ≠ databaseEnginePXC := by decide
  have hpg : databaseEnginePostgresql ≠ databaseEnginePXC := by decide
  have hpg' : databaseEnginePostgresql ≠ databaseEnginePSMDB := by decide
  rw [connectionURL, if_neg hhost, readable_iff, hostString]
  refine ⟨_, rfl, ?_⟩
  rcases hengine with htype | htype | htype
  · simp only [htype, if_true, if_neg hpsmdb.symm, ne_eq, not_true, false_and, withoutJDBC_jdbc,
      login_jdbc, reduceCtorEq, and_true]
    exact login_queryEscapedURL _ _ _ _ (by decide) (by decide +kernel)
  · simp only [htype, if_true, ne_eq, hpsmdb, not_false_eq_true, true_and]
    have hread := login_queryEscapedURL (ascii "mongodb") user password (psmdbHosts db)
      (by decide) (by decide +kernel)
    exact ⟨hread, hread⟩
  · simp only [htype, if_neg hpg', if_true, ne_eq, hpg, not_false_eq_true, true_and]
    have hread := login_queryEscapedURL (ascii "postgres") user password
      (joinHostPort db.hostname (sprintInt db.port)) (by decide) (by decide +kernel)
    exact ⟨hread, hread⟩

def sampleConnected : ConnectedCluster where
  engineType := databaseEnginePostgresql
  shardingEnabled := false
  hostname := ascii "pg.ns.svc"
  port := 5432

theorem connectionURL_login_iff_sample :
    ∃ url, connectionURL sampleConnected (ascii "postgres") (ascii "pass;word") = some url ∧
      login url = some ⟨ascii "postgres", ascii "pass;word", ascii "pg.ns.svc:5432"⟩ := by
  obtain ⟨url, hurl, -, hlogin⟩ := connectionURL_login_iff sampleConnected (ascii "postgres")
    (ascii "pass;word") (by decide) (.inr (.inr rfl))
  refine ⟨url, hurl, hlogin.mpr ⟨by decide, ?_, by decide, ?_⟩⟩
  · decide +kernel
  · have hname : isHost (ascii "pg.ns.svc") = true := by decide +kernel
    exact ⟨by decide, hname⟩

/-- The members of a replica set, as its hostname lists them, are not one host. -/
example : isHostPort (ascii "db-0.ns:27017,db-1.ns:27017,db-2.ns:27017") = false := by
  decide +kernel

/-- A space of the password comes back as a plus sign. -/
theorem connectionURL_changes_login :
    ¬ ∀ (db : ConnectedCluster) (user password url : GoString),
      connectionURL db user password = some url →
      login (withoutJDBC url) = some ⟨user, password, hostString db⟩ := by
  intro hlaw
  have hread := hlaw sampleConnected (ascii "postgres") (ascii "a b") _ rfl
  revert hread
  decide +kernel

end OpenEverest.K8s

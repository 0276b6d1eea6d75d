/-
Build tools run untrusted code in a server that may open the device of its
attestation reports.  What the server does before it lets a tool run, and what
that means for all that the tool starts.
-/
import Kettle.Lib.Credentials

namespace Kettle

namespace Toolchain

open BitFlags

inductive IoErrorKind where
  | permissionDenied
  | other
deriving DecidableEq, Repr

/-- An error of the system with its text. -/
structure SpawnError where
  kind : IoErrorKind
  message : String
deriving DecidableEq, Repr

/-- `EPERM`. -/
def eperm : SpawnError :=
  ⟨.permissionDenied, "Operation not permitted (os error 1)"⟩

/-- What the child does between `fork` and `exec`; the device may not
exist. -/
def confine (device : Option DeviceNode) (server : Credentials) :
    Except SpawnError Credentials :=
  -- the result of `setgroups` is ignored
  let child := ((server.setGroups []).getD server).clearAmbient
  match device with
  | some node =>
      if child.mayAccess node .readWrite then .error eperm else .ok child
  | none => .ok child

def confinementHint : String :=
  ": the program is not executable, or the build could reach " ++
    "/dev/sev-guest (kettle-server needs CAP_SETGID from its unit to " ++
    "drop the sev-guest group before running build tools)"

def explain (err : SpawnError) : SpawnError :=
  if err.kind ≠ .permissionDenied then err
  else ⟨err.kind, err.message ++ confinementHint⟩

/-- The credentials of the child, for the file that `exec` finds or its
error. -/
def spawn (device : Option DeviceNode) (tool : Except SpawnError Executable)
    (server : Credentials) : Except SpawnError Credentials :=
  match confine device server with
  | .error err => .error (explain err)
  | .ok child =>
      match tool with
      | .error err => .error (explain err)
      | .ok file => .ok (child.exec file)

/-- `User`, `Group` and `NoNewPrivileges` of the server's unit. -/
structure ServiceIdentity (server : Credentials) : Prop where
  nonRoot : server.ruid ≠ 0
  euid : server.euid = server.ruid
  egid : server.egid = server.rgid
  noNewPrivs : server.noNewPrivs = true

/-- A program that brings no capabilities of its own. -/
structure PlainFile (file : Executable) : Prop where
  inheritable : file.inheritable = 0#64
  permitted : file.permitted = 0#64

/-- The supplementary groups that are left. -/
def groupsLeft (server : Credentials) : List Nat :=
  if isSet server.effective CapSet.setgid then [] else server.groups

section Spawn

variable {server child : Credentials} {device : Option DeviceNode}
  {tool : Except SpawnError Executable} {file : Executable}

theorem dropped_eq (server : Credentials) :
    ((server.setGroups []).getD server).clearAmbient =
      { server with groups := groupsLeft server, ambient := 0#64 } := by
  unfold Credentials.setGroups groupsLeft
  split <;> rfl

/-- Without capabilities, `access` asks what the program will be asked. -/
theorem confine_eq (hidentity : ServiceIdentity server) :
    confine device server =
      if ∃ node ∈ device, node.allows server.ruid server.rgid
          (groupsLeft server) 0#64 .readWrite = true then .error eperm
      else
        .ok { server with groups := groupsLeft server, ambient := 0#64 } := by
  unfold confine
  rw [dropped_eq]
  cases device with
  | none => simp
  | some node =>
      simp [Credentials.mayAccess, hidentity.nonRoot]

theorem spawned_unprivileged (hidentity : ServiceIdentity server)
    (hplain : PlainFile file) :
    (Credentials.exec file
      { server with groups := groupsLeft server, ambient := 0#64 }).Unprivileged
      server.ruid server.rgid (groupsLeft server) := by
  constructor <;>
    simp [Credentials.exec, Credentials.execIds, Credentials.isRoot,
      hidentity.nonRoot, hidentity.euid, hidentity.egid,
      hidentity.noNewPrivs, hplain.inheritable, hplain.permitted]

/-- A tool is started exactly when the device is out of its reach. -/
theorem spawn_eq_ok_iff (hidentity : ServiceIdentity server) :
    spawn device (.ok file) server = .ok child ↔
      (∀ node ∈ device, node.allows server.ruid server.rgid
        (groupsLeft server) 0#64 .readWrite = false) ∧
      child = Credentials.exec file
        { server with groups := groupsLeft server, ambient := 0#64 } := by
  unfold spawn
  rw [confine_eq hidentity]
  by_cases hreach : ∃ node ∈ device, node.allows server.ruid server.rgid
    (groupsLeft server) 0#64 .readWrite = true
  · rw [if_pos hreach]
    obtain ⟨node, hnode, hallows⟩ := hreach
    refine ⟨nofun, fun ⟨hnever, _⟩ => ?_⟩
    rw [hnever node hnode] at hallows
    cases hallows
  · rw [if_neg hreach]
    refine ⟨fun hchild => ⟨fun node hnode => ?_,
      (Except.ok.inj hchild).symm⟩, fun ⟨_, hchild⟩ => hchild ▸ rfl⟩
    rw [← Bool.not_eq_true]
    exact fun hallows => hreach ⟨node, hnode, hallows⟩

theorem spawn_eq_error {node : DeviceNode} (hidentity : ServiceIdentity server)
    (hallows : node.allows server.ruid server.rgid (groupsLeft server) 0#64
      .readWrite = true) :
    spawn (some node) tool server = .error (explain eperm) := by
  unfold spawn
  rw [confine_eq hidentity, if_pos ⟨node, rfl, hallows⟩]

theorem spawn_eq_ok (hspawn : spawn device tool server = .ok child) :
    ∃ file, tool = .ok file := by
  unfold spawn at hspawn
  cases tool with
  | ok file => exact ⟨file, rfl⟩
  | error err => cases hconfine : confine device server <;>
      rw [hconfine] at hspawn <;> cases hspawn

end Spawn

/-- Nobody in the tree of a process can open the node. -/
def OutOfReach (node : DeviceNode) (first : Credentials) (wanted : Access) :
    Prop :=
  ∀ world, (processes node first).Reachable world →
    ∀ creds ∈ world.running, creds.mayOpen world.node wanted = false

/-- What starting a tool means for the device. -/
structure Confined (server : Credentials)
    (tool : Except SpawnError Executable) : Prop where
  /-- Nothing that is started from a tool that runs can both read and write
  the device, or do either if nobody can do only one. -/
  safe : ∀ node child, node.owner = 0 →
    spawn (some node) tool server = .ok child →
      OutOfReach node child .readWrite ∧
      (node.Together → ∀ wanted, wanted ≠ .nothing →
        OutOfReach node child wanted)
  /-- Only a tool that would reach the device is refused. -/
  refused : ∀ node file, node.owner = 0 → tool = .ok file →
    (∀ child, spawn (some node) tool server ≠ .ok child) →
      spawn (some node) tool server = .error (explain eperm) ∧
      ∃ child, spawn none tool server = .ok child ∧
        child.mayOpen node .readWrite = true
  /-- A server that may drop its groups starts its tools, also before there
  is a device, and the group is of no use to them. -/
  dropped : isSet server.effective CapSet.setgid = true →
    ∀ node file, node.owner = 0 → node.group ≠ server.rgid →
      node.ofOthers = .nothing → tool = .ok file →
        ∀ device, device = none ∨ device = some node →
          ∃ child, spawn device tool server = .ok child ∧
            ∀ wanted, wanted ≠ .nothing → OutOfReach node child wanted

/-- Neither the owner nor in the group. -/
theorem allows_eq_false {node : DeviceNode} {user group : Nat} {wanted : Access}
    (huser : node.owner ≠ user) (hgroup : node.group ≠ group)
    (hothers : node.ofOthers = .nothing) (hwanted : wanted ≠ .nothing) :
    node.allows user group [] 0#64 wanted = false := by
  have hnone : wanted.within .nothing = false := by
    obtain ⟨read, write⟩ := wanted
    revert hwanted
    cases read <;> cases write <;> decide
  simp [DeviceNode.allows, huser.symm, hgroup.symm, hothers, hnone]

theorem outOfReach_of_allows {server child : Credentials} {node : DeviceNode}
    {wanted : Access} {groups : List Nat} (hroot : server.ruid ≠ 0)
    (hchild : child.Unprivileged server.ruid server.rgid groups)
    (howner : node.owner = 0)
    (hallows : node.allows server.ruid server.rgid groups 0#64 wanted =
      false) : OutOfReach node child wanted := by
  intro world hworld creds hmem
  obtain ⟨-, hopen⟩ := processes_mayOpen
    (howner.trans_ne hroot.symm) hchild hworld
  rw [hopen creds hmem wanted, hallows]

/-- Whatever the tools do, and whatever else they run. -/
theorem spawn_confines {server : Credentials}
    {tool : Except SpawnError Executable} (hidentity : ServiceIdentity server)
    (hplain : ∀ file, tool = .ok file → PlainFile file) :
    Confined server tool := by
  have hchild : ∀ {device child}, spawn device tool server = .ok child →
      (∀ node ∈ device, node.allows server.ruid server.rgid
        (groupsLeft server) 0#64 .readWrite = false) ∧
      child.Unprivileged server.ruid server.rgid (groupsLeft server) := by
    intro device child hspawn
    obtain ⟨file, rfl⟩ := spawn_eq_ok hspawn
    have hfile := hplain file rfl
    obtain ⟨hnever, rfl⟩ := (spawn_eq_ok_iff hidentity).mp hspawn
    exact ⟨hnever, spawned_unprivileged hidentity hfile⟩
  refine ⟨?_, ?_, ?_⟩
  · intro node child howner hspawn
    obtain ⟨hnever, hordinary⟩ := hchild hspawn
    have hno := hnever node rfl
    refine ⟨outOfReach_of_allows hidentity.nonRoot hordinary howner hno,
      fun htogether wanted hwanted => ?_⟩
    refine outOfReach_of_allows hidentity.nonRoot hordinary howner ?_
    rw [← Bool.not_eq_true]
    intro hallows
    have hboth := node.allows_readWrite htogether hwanted hallows
    rw [hno] at hboth
    cases hboth
  · intro node file howner htool hrefused
    subst htool
    have hfile := hplain file rfl
    have hallows : node.allows server.ruid server.rgid (groupsLeft server)
        0#64 .readWrite = true := by
      by_contra hnot
      refine hrefused _ ((spawn_eq_ok_iff hidentity).mpr ⟨?_, rfl⟩)
      rintro _ ⟨⟩
      exact Bool.not_eq_true _ ▸ hnot
    refine ⟨spawn_eq_error hidentity hallows, _,
      (spawn_eq_ok_iff hidentity).mpr ⟨nofun, rfl⟩, ?_⟩
    rw [(spawned_unprivileged hidentity hfile).mayOpen, hallows]
  · intro hgranted node file howner hgroup hothers htool device hdevice
    subst htool
    have hfile := hplain file rfl
    have hleft : groupsLeft server = [] := if_pos hgranted
    have hno : ∀ wanted, wanted ≠ .nothing → node.allows server.ruid
        server.rgid (groupsLeft server) 0#64 wanted = false := by
      intro wanted hwanted
      rw [hleft]
      exact allows_eq_false (howner.trans_ne hidentity.nonRoot.symm) hgroup
        hothers hwanted
    refine ⟨_, (spawn_eq_ok_iff hidentity).mpr ⟨?_, rfl⟩,
      fun wanted hwanted => outOfReach_of_allows hidentity.nonRoot
        (spawned_unprivileged hidentity hfile) howner (hno wanted hwanted)⟩
    rcases hdevice with rfl | rfl
    · nofun
    · rintro _ ⟨⟩
      exact hno .readWrite (by decide)

/-- The server as its unit starts it, and the device as its rule makes it. -/
def kettleServer : Credentials where
  ruid := 900
  euid := 900
  suid := 900
  rgid := 900
  egid := 900
  sgid := 900
  groups := [901]
  inheritable := flag CapSet.setgid
  permitted := flag CapSet.setgid
  effective := flag CapSet.setgid
  bounding := flag CapSet.setgid
  ambient := flag CapSet.setgid
  noNewPrivs := true

def sevGuest : DeviceNode := ⟨0, 901, .readWrite, .readWrite, .nothing⟩

theorem spawn_confines_kettle :
    kettleServer.mayOpen sevGuest .readWrite = true ∧
      Confined kettleServer (.ok ⟨0, 0, false, false, 0#64, 0#64, false⟩) :=
  ⟨by decide, spawn_confines ⟨by decide, rfl, rfl, rfl⟩
    fun _ hfile => Except.ok.inj hfile ▸ ⟨rfl, rfl⟩⟩

end Toolchain

end Kettle

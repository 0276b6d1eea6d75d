/-
Processes on Linux and what they may open: user and group ids, supplementary
groups and capabilities, what a process can make of its own, and the
permissions of a node in the file system.
-/
import Kettle.Lib.BitFlags
import Kettle.Lib.Transition

open BitFlags

abbrev CapSet := BitVec 64

namespace CapSet

/-- `CAP_CHOWN`, and others below by their numbers. -/
def chown : Fin 64 := 0

def dacOverride : Fin 64 := 1

def dacReadSearch : Fin 64 := 2

def fowner : Fin 64 := 3

def setgid : Fin 64 := 6

def setuid : Fin 64 := 7

def Within (caps all : CapSet) : Prop := all &&& caps = caps

theorem eq_zero_of_within {caps : CapSet} (hwithin : Within caps 0#64) :
    caps = 0#64 := by
  rw [← hwithin]
  exact BitVec.zero_and

end CapSet

structure Access where
  read : Bool
  write : Bool
deriving DecidableEq, Repr

namespace Access

def readWrite : Access := ⟨true, true⟩

def nothing : Access := ⟨false, false⟩

def within (wanted all : Access) : Bool :=
  (!wanted.read || all.read) && (!wanted.write || all.write)

/-- Reading is allowed to those who may write, and to no others. -/
def Together (access : Access) : Prop := access.read = access.write

theorem within_of_together {wanted all : Access} (hall : all.Together)
    (hwanted : wanted ≠ nothing) (hwithin : wanted.within all = true) :
    readWrite.within all = true := by
  obtain ⟨read, write⟩ := wanted
  obtain ⟨allRead, allWrite⟩ := all
  cases hall
  revert hwanted hwithin
  cases read <;> cases write <;> cases allRead <;> decide

end Access

/-- What permissions are for. -/
structure DeviceNode where
  owner : Nat
  group : Nat
  ofOwner : Access
  ofGroup : Access
  ofOthers : Access
deriving DecidableEq, Repr

/-- Whether someone is allowed what is wanted. -/
def DeviceNode.allows (node : DeviceNode) (user group : Nat) (groups : List Nat)
    (caps : CapSet) (wanted : Access) : Bool :=
  isSet caps CapSet.dacOverride ||
  (isSet caps CapSet.dacReadSearch && !wanted.write) ||
  if user = node.owner then wanted.within node.ofOwner
  else if group = node.group ∨ node.group ∈ groups then
    wanted.within node.ofGroup
  else wanted.within node.ofOthers

/-- Each class of users may both read and write, or neither. -/
structure DeviceNode.Together (node : DeviceNode) : Prop where
  owner : node.ofOwner.Together
  group : node.ofGroup.Together
  others : node.ofOthers.Together

theorem DeviceNode.allows_readWrite {node : DeviceNode} (hnode : node.Together)
    {user group : Nat} {groups : List Nat} {wanted : Access}
    (hwanted : wanted ≠ .nothing)
    (hallows : node.allows user group groups 0#64 wanted = true) :
    node.allows user group groups 0#64 .readWrite = true := by
  simp only [DeviceNode.allows, isSet_zero, Bool.false_or, Bool.false_and]
    at hallows ⊢
  by_cases howner : user = node.owner
  · rw [if_pos howner] at hallows ⊢
    exact Access.within_of_together hnode.owner hwanted hallows
  · rw [if_neg howner] at hallows ⊢
    by_cases hgroup : group = node.group ∨ node.group ∈ groups
    · rw [if_pos hgroup] at hallows ⊢
      exact Access.within_of_together hnode.group hwanted hallows
    · rw [if_neg hgroup] at hallows ⊢
      exact Access.within_of_together hnode.others hwanted hallows

/-- A file that can be executed, with its set-id bits and capabilities. -/
structure Executable where
  owner : Nat
  group : Nat
  setUser : Bool
  setGroup : Bool
  inheritable : CapSet
  permitted : CapSet
  effective : Bool
deriving DecidableEq, Repr

structure Credentials where
  ruid : Nat
  euid : Nat
  suid : Nat
  rgid : Nat
  egid : Nat
  sgid : Nat
  groups : List Nat
  inheritable : CapSet
  permitted : CapSet
  effective : CapSet
  bounding : CapSet
  ambient : CapSet
  noNewPrivs : Bool
deriving DecidableEq, Repr

namespace Credentials

/-- `open`, for a file that exists. -/
def mayOpen (creds : Credentials) (node : DeviceNode) (wanted : Access) : Bool :=
  node.allows creds.euid creds.egid creds.groups creds.effective wanted

/-- `access` asks with the real ids; the capabilities count only for root. -/
def mayAccess (creds : Credentials) (node : DeviceNode) (wanted : Access) : Bool :=
  node.allows creds.ruid creds.rgid creds.groups
    (if creds.ruid = 0 then creds.permitted else 0#64) wanted

def setGroups (groups : List Nat) (creds : Credentials) :
    Option Credentials :=
  if isSet creds.effective CapSet.setgid then
    some { creds with groups := groups }
  else none

def clearAmbient (creds : Credentials) : Credentials :=
  { creds with ambient := 0#64 }

def isRoot (creds : Credentials) : Bool := creds.ruid = 0 || creds.euid = 0

/-- The ids after `execve`.  Set-id bits do nothing where new privileges are
not allowed. -/
def execIds (file : Executable) (creds : Credentials) : Credentials :=
  let euid := if file.setUser && !creds.noNewPrivs then file.owner
    else creds.euid
  let egid := if file.setGroup && !creds.noNewPrivs then file.group
    else creds.egid
  { creds with euid := euid, suid := euid, egid := egid, sgid := egid }

/-- `execve`: root has a file with all capabilities, and nothing is gained
where new privileges are not allowed. -/
def exec (file : Executable) (creds : Credentials) : Credentials :=
  let after := creds.execIds file
  let inheritable := if after.isRoot then BitVec.allOnes 64
    else file.inheritable
  let permitted := if after.isRoot then BitVec.allOnes 64 else file.permitted
  let privileged := file.setUser || file.setGroup ||
    file.inheritable ≠ 0#64 || file.permitted ≠ 0#64
  let ambient := if privileged then 0#64 else creds.ambient
  let gained := (creds.inheritable &&& inheritable) |||
    (permitted &&& creds.bounding) ||| ambient
  let permitted := if creds.noNewPrivs then gained &&& creds.permitted
    else gained
  { after with
    permitted := permitted
    effective := if file.effective || after.euid = 0 then permitted
      else ambient
    ambient := ambient }

end Credentials

/-- What a process can make of its credentials, whatever program it runs. -/
inductive CredentialsStep : Credentials → Credentials → Prop
  | exec {creds : Credentials} (file : Executable) :
      CredentialsStep creds (creds.exec file)
  | setUsers {creds : Credentials} (ruid euid suid : Nat) :
      (∀ id ∈ [ruid, euid, suid], id ∈ [creds.ruid, creds.euid, creds.suid] ∨
        isSet creds.effective CapSet.setuid = true) →
      CredentialsStep creds
        { creds with ruid := ruid, euid := euid, suid := suid }
  | setGroupIds {creds : Credentials} (rgid egid sgid : Nat) :
      (∀ id ∈ [rgid, egid, sgid], id ∈ [creds.rgid, creds.egid, creds.sgid] ∨
        isSet creds.effective CapSet.setgid = true) →
      CredentialsStep creds
        { creds with rgid := rgid, egid := egid, sgid := sgid }
  | setGroups {creds after : Credentials} (groups : List Nat) :
      creds.setGroups groups = some after → CredentialsStep creds after
  /-- `capset` and `prctl`, and what a change of the user id does. -/
  | setCaps {creds : Credentials}
      (inheritable permitted effective bounding ambient : CapSet) :
      CapSet.Within inheritable (creds.inheritable ||| creds.bounding) →
      CapSet.Within permitted creds.permitted →
      CapSet.Within effective permitted →
      CapSet.Within bounding creds.bounding →
      CapSet.Within ambient permitted →
      CredentialsStep creds
        { creds with
          inheritable := inheritable
          permitted := permitted
          effective := effective
          bounding := bounding
          ambient := ambient }
  | setNoNewPrivs {creds : Credentials} :
      CredentialsStep creds { creds with noNewPrivs := true }

/-- Processes that are running, and a node that they might open. -/
structure Processes where
  node : DeviceNode
  running : List Credentials

inductive ProcessesStep : Processes → Processes → Prop
  | act {world : Processes} {i : Nat} {before after : Credentials} :
      world.running[i]? = some before → CredentialsStep before after →
      ProcessesStep world { world with running := world.running.set i after }
  | fork {world : Processes} {creds : Credentials} :
      creds ∈ world.running →
      ProcessesStep world { world with running := world.running ++ [creds] }
  | exit {world : Processes} (i : Nat) :
      ProcessesStep world { world with running := world.running.eraseIdx i }
  | changeMode {world : Processes} {creds : Credentials}
      (ofOwner ofGroup ofOthers : Access) :
      creds ∈ world.running →
      creds.euid = world.node.owner ∨
        isSet creds.effective CapSet.fowner = true →
      ProcessesStep world
        { world with
          node := ⟨world.node.owner, world.node.group, ofOwner, ofGroup,
            ofOthers⟩ }
  | changeOwner {world : Processes} {creds : Credentials}
      (owner group : Nat) :
      creds ∈ world.running →
      creds.euid = world.node.owner ∨
        isSet creds.effective CapSet.chown = true →
      ProcessesStep world
        { world with node := { world.node with owner := owner, group := group } }

/-- A process alone with the node, and all that it starts. -/
def processes (node : DeviceNode) (first : Credentials) : Transition Processes where
  initial world := world = ⟨node, [first]⟩
  step := ProcessesStep

/-- An ordinary process: one user and one group id, and no capabilities. -/
structure Credentials.Unprivileged (creds : Credentials) (user group : Nat)
    (groups : List Nat) : Prop where
  ruid : creds.ruid = user
  euid : creds.euid = user
  suid : creds.suid = user
  rgid : creds.rgid = group
  egid : creds.egid = group
  sgid : creds.sgid = group
  groups : creds.groups = groups
  permitted : creds.permitted = 0#64
  effective : creds.effective = 0#64
  ambient : creds.ambient = 0#64
  noNewPrivs : creds.noNewPrivs = true

namespace Credentials

variable {creds after : Credentials} {user group : Nat} {groups : List Nat}

theorem Unprivileged.mayOpen (hcreds : creds.Unprivileged user group groups)
    (node : DeviceNode) (wanted : Access) :
    creds.mayOpen node wanted = node.allows user group groups 0#64 wanted := by
  rw [Credentials.mayOpen, hcreds.euid, hcreds.egid, hcreds.groups,
    hcreds.effective]

theorem exec_noNewPrivs (file : Executable)
    (hcreds : creds.noNewPrivs = true) :
    creds.execIds file =
      { creds with suid := creds.euid, sgid := creds.egid } := by
  simp [execIds, hcreds]

/-- Where nothing can be gained, no program makes a process more than it
was. -/
theorem Unprivileged.exec (hcreds : creds.Unprivileged user group groups)
    (file : Executable) :
    (creds.exec file).Unprivileged user group groups := by
  have hids := exec_noNewPrivs file hcreds.noNewPrivs
  have hambient : ∀ p : Prop, [Decidable p] →
      (if p then 0#64 else creds.ambient) = 0#64 := by
    intro p _
    rw [hcreds.ambient, ite_self]
  constructor <;>
    simp only [Credentials.exec, hids, hcreds.ruid, hcreds.euid, hcreds.rgid,
      hcreds.egid, hcreds.groups, hcreds.noNewPrivs, hcreds.permitted,
      hambient, BitVec.and_zero, if_true, ite_self]

theorem Unprivileged.step (hcreds : creds.Unprivileged user group groups)
    (hstep : CredentialsStep creds after) :
    after.Unprivileged user group groups := by
  have hnone : ∀ cap, ¬ isSet creds.effective cap = true := by
    intro cap
    rw [hcreds.effective, isSet_zero]
    exact Bool.false_ne_true
  cases hstep with
  | exec file => exact hcreds.exec file
  | setUsers ruid euid suid hids =>
      have hsame : ∀ id ∈ [ruid, euid, suid], id = user := by
        intro id hid
        have hold := (hids id hid).resolve_right (hnone _)
        simpa [hcreds.ruid, hcreds.euid, hcreds.suid] using hold
      exact { hcreds with
        ruid := hsame ruid (by simp)
        euid := hsame euid (by simp)
        suid := hsame suid (by simp) }
  | setGroupIds rgid egid sgid hids =>
      have hsame : ∀ id ∈ [rgid, egid, sgid], id = group := by
        intro id hid
        have hold := (hids id hid).resolve_right (hnone _)
        simpa [hcreds.rgid, hcreds.egid, hcreds.sgid] using hold
      exact { hcreds with
        rgid := hsame rgid (by simp)
        egid := hsame egid (by simp)
        sgid := hsame sgid (by simp) }
  | setGroups list hset =>
      rw [setGroups, if_neg (hnone _)] at hset
      cases hset
  | setCaps inheritable permitted effective bounding ambient _ hpermitted
      heffective _ hambient =>
      rw [hcreds.permitted] at hpermitted
      have hzero := CapSet.eq_zero_of_within hpermitted
      subst hzero
      exact { hcreds with
        permitted := rfl
        effective := CapSet.eq_zero_of_within heffective
        ambient := CapSet.eq_zero_of_within hambient }
  | setNoNewPrivs => exact { hcreds with noNewPrivs := rfl }

end Credentials

/-- The node is as it was, and nobody is more than an ordinary process. -/
structure Processes.Ordinary (world : Processes) (node : DeviceNode)
    (user group : Nat) (groups : List Nat) : Prop where
  node : world.node = node
  running : ∀ creds ∈ world.running, creds.Unprivileged user group groups

theorem Processes.Ordinary.step {world after : Processes} {node : DeviceNode}
    {user group : Nat} {groups : List Nat} (howner : node.owner ≠ user)
    (hworld : world.Ordinary node user group groups)
    (hstep : ProcessesStep world after) :
    after.Ordinary node user group groups := by
  have hcannot : ∀ creds ∈ world.running, ∀ cap,
      ¬ (creds.euid = world.node.owner ∨
        isSet creds.effective cap = true) := by
    intro creds hmem cap hcan
    have hcreds := hworld.running creds hmem
    rw [hcreds.euid, hworld.node, hcreds.effective, isSet_zero] at hcan
    rcases hcan with hsame | hset
    · exact howner hsame.symm
    · cases hset
  cases hstep with
  | act hbefore hact =>
      refine ⟨hworld.node, fun creds hmem => ?_⟩
      rcases List.mem_or_eq_of_mem_set hmem with hold | rfl
      · exact hworld.running creds hold
      · exact (hworld.running _ (List.mem_of_getElem? hbefore)).step hact
  | fork hparent =>
      refine ⟨hworld.node, fun creds hmem => ?_⟩
      rcases List.mem_append.mp hmem with hold | hnew
      · exact hworld.running creds hold
      · rw [List.mem_singleton.mp hnew]
        exact hworld.running _ hparent
  | exit i =>
      exact ⟨hworld.node, fun creds hmem =>
        hworld.running creds (List.mem_of_mem_eraseIdx hmem)⟩
  | changeMode _ _ _ hmem hcan => exact absurd hcan (hcannot _ hmem _)
  | changeOwner _ _ hmem hcan => exact absurd hcan (hcannot _ hmem _)

/-- What an ordinary process starts can open the node as the process could,
and not otherwise. -/
theorem processes_mayOpen {node : DeviceNode} {first : Credentials}
    {user group : Nat} {groups : List Nat} (howner : node.owner ≠ user)
    (hfirst : first.Unprivileged user group groups) {world : Processes}
    (hreachable : (processes node first).Reachable world) :
    world.node = node ∧ ∀ creds ∈ world.running, ∀ wanted,
      creds.mayOpen world.node wanted =
        node.allows user group groups 0#64 wanted := by
  have hinductive : (processes node first).Inductive fun world =>
      world.Ordinary node user group groups :=
    { initial := by
        rintro _ rfl
        exact ⟨rfl, fun creds hmem => List.mem_singleton.mp hmem ▸ hfirst⟩
      step := fun _ _ hworld hstep => hworld.step howner hstep }
  have hworld := hinductive.reachable hreachable
  refine ⟨hworld.node, fun creds hmem wanted => ?_⟩
  rw [(hworld.running creds hmem).mayOpen, hworld.node]

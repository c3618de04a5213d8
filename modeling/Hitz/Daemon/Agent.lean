import Hitz.Api.Types
import Hitz.Boot.Cpio

/-!
# Injecting the guest agent (`hitz-daemon/src/agent.rs`, `inject_guest_agent`)

The daemon appends an overlay archive with the agent and its init script to the user's initramfs
and boots the VM from the combined file.

The kernel reads a header only at an offset divisible by four.  The overlay is appended without
padding, so it is found exactly when the length of the user's file is divisible by four
(`injectGuestAgent_keepsReadable_iff`).
-/

namespace Hitz.Daemon

open Api Boot Newc

/-- What the daemon reads from and writes to the host: the agent embedded in the executable, the
files, and the directory for temporary files. -/
structure Host where
  agentBytes : List UInt8
  read : String → Option (List UInt8)
  write : String → List UInt8 → Bool
  tempDir : String

/-- `INIT_SCRIPT`. -/
def initScript : List UInt8 := ascii "#!/bin/sh\n/sbin/hitz-agent &\n"

/-- The files of the overlay. -/
def overlayFiles (agent : List UInt8) : List CpioFile :=
  [⟨ascii "sbin/hitz-agent", agent, 0o755⟩, ⟨ascii "etc/init.d/S99hitz-agent", initScript, 0o755⟩]

/-- `build_agent_overlay`; `none` is a panic of the builder. -/
def buildAgentOverlay (checked : Bool) (agent : List UInt8) : Option (List UInt8) :=
  CpioBuilder.build checked (overlayFiles agent)

/-- `resolve_agent_bytes`. -/
def resolveAgentBytes (host : Host) : GuestAgentMode → Option (List UInt8)
  | .disabled => none
  | .auto => if host.agentBytes.isEmpty then none else some host.agentBytes
  | .custom path => host.read path

/-- The initramfs that the overlay is appended to; an unreadable file counts as empty. -/
def userInitramfs (host : Host) (config : VmConfig) : List UInt8 :=
  match config.initramfsPath with
  | none => []
  | some path => (host.read path).getD []

/-- Where the combined image goes. -/
def imagePath (host : Host) (id : String) : String :=
  host.tempDir ++ "/hitz-initrd-" ++ id ++ ".cpio"

/-- `inject_guest_agent`: the configuration to boot, and the image if one was written. -/
def injectGuestAgent (checked : Bool) (host : Host) (config : VmConfig) (id : String) :
    Option (VmConfig × Option (List UInt8)) :=
  match resolveAgentBytes host config.guestAgent with
  | none => some (config, none)
  | some agent => do
    let overlay ← buildAgentOverlay checked agent
    let combined := userInitramfs host config ++ overlay
    if host.write (imagePath host id) combined then
      some ({ config with initramfsPath := some (imagePath host id) }, some combined)
    else
      some (config, none)

/-- The files among the records of an initramfs: name and content. -/
def files (recs : List Record) : List (List UInt8 × List UInt8) :=
  (recs.filter fun r => decide (r.name ≠ ascii "TRAILER!!!")).map fun r => (r.name, r.data)

/-- The image starts with the user's initramfs, has the overlay at an aligned offset with only
zeroes in between, and reads as the user's files followed by the agent's. -/
def KeepsReadable (user agent image : List UInt8) : Prop :=
  (∃ pad overlay, (∃ checked, buildAgentOverlay checked agent = some overlay) ∧
    image = user ++ List.replicate pad 0 ++ overlay ∧ (user.length + pad) % 4 = 0) ∧
  ∀ recs, parse user = some recs → ∃ recs', parse image = some recs' ∧
    files recs' = files recs ++ [(ascii "sbin/hitz-agent", agent),
      (ascii "etc/init.d/S99hitz-agent", initScript)]

/-! ### The overlay -/

theorem buildAgentOverlay_eq (checked : Bool) (agent : List UInt8) :
    buildAgentOverlay checked agent = some (CpioBuilder.body 1 (overlayFiles agent)) := by
  rw [buildAgentOverlay, CpioBuilder.build_eq, if_neg]
  rintro ⟨-, hge⟩
  simp only [overlayFiles, List.length_cons, List.length_nil] at hge
  omega

theorem overlayFiles_fit {agent : List UInt8} (h : agent.length < 2 ^ 32) :
    ∀ f ∈ overlayFiles agent, CpioBuilder.Fits f := by
  have hnul : 0 ∉ ascii "sbin/hitz-agent" := by decide
  have htrailer : ascii "sbin/hitz-agent" ≠ ascii "TRAILER!!!" := by decide
  have hpath : (ascii "sbin/hitz-agent").length < 2 ^ 32 - 1 := by decide
  simp only [overlayFiles, List.forall_mem_cons, List.not_mem_nil, false_imp_iff, implies_true,
    and_true]
  exact ⟨⟨hnul, htrailer, hpath, h⟩, ⟨by decide, by decide, by decide, by decide⟩⟩

/-- At an aligned offset the overlay reads as the agent and its script. -/
theorem parseFrom_overlay {agent : List UInt8} (h : agent.length < 2 ^ 32) (offset : ℕ)
    (ho : offset % 4 = 0) : ∃ recs,
      parseFrom offset (CpioBuilder.body 1 (overlayFiles agent)) = some recs ∧
        files recs = [(ascii "sbin/hitz-agent", agent),
          (ascii "etc/init.d/S99hitz-agent", initScript)] := by
  refine ⟨_, CpioBuilder.parseFrom_body ho (overlayFiles_fit h), ?_⟩
  have h1 : ascii "sbin/hitz-agent" ≠ ascii "TRAILER!!!" := by decide
  have h2 : ascii "etc/init.d/S99hitz-agent" ≠ ascii "TRAILER!!!" := by decide
  simp [files, overlayFiles, CpioBuilder.fileRecords, CpioBuilder.entryRecord,
    CpioBuilder.trailerRecord, CpioBuilder.trailerName, h1, h2]

theorem files_append (recs recs' : List Record) :
    files (recs ++ recs') = files recs ++ files recs' := by
  simp [files]

/-- The combined image of an initramfs and an agent. -/
theorem keepsReadable_append_iff (user agent : List UInt8) :
    KeepsReadable user agent (user ++ CpioBuilder.body 1 (overlayFiles agent)) ↔
      user.length % 4 = 0 ∧ ((∃ recs, parse user = some recs) → agent.length < 2 ^ 32) := by
  constructor
  · rintro ⟨⟨pad, overlay, ⟨checked, hover⟩, himage, halign⟩, hparse⟩
    constructor
    · -- both images end in the overlay, so there is no room for padding
      rw [buildAgentOverlay_eq] at hover
      cases hover
      have hlen := congrArg List.length himage
      simp only [List.length_append, List.length_replicate] at hlen
      omega
    · rintro ⟨recs, hrecs⟩
      obtain ⟨recs', hrecs', hfiles⟩ := hparse recs hrecs
      have hmem : (ascii "sbin/hitz-agent", agent) ∈ files recs' := by
        rw [hfiles]
        simp
      obtain ⟨r, hr, heq⟩ := List.mem_map.1 hmem
      have hdata : r.data = agent := congrArg Prod.snd heq
      rw [← hdata]
      exact (parseFrom_mem hrecs' r (List.mem_filter.1 hr).1).2
  · rintro ⟨halign, hfit⟩
    refine ⟨⟨0, _, ⟨true, buildAgentOverlay_eq true agent⟩, ?_, halign⟩, ?_⟩
    · simp
    · intro recs hrecs
      obtain ⟨recs', hrecs', hfiles⟩ := parseFrom_overlay (hfit ⟨recs, hrecs⟩)
        (0 + user.length) (by omega)
      refine ⟨recs ++ recs', ?_, by rw [files_append, hfiles]⟩
      rw [parse, parseFrom_append hrecs, hrecs']
      rfl

/-- The injection never panics: it writes the combined image, or leaves the configuration. -/
theorem injectGuestAgent_eq (checked : Bool) (host : Host) (config : VmConfig) (id : String)
    (agent : List UInt8) (hagent : resolveAgentBytes host config.guestAgent = some agent) :
    injectGuestAgent checked host config id =
      if host.write (imagePath host id)
          (userInitramfs host config ++ CpioBuilder.body 1 (overlayFiles agent)) then
        some ({ config with initramfsPath := some (imagePath host id) },
          some (userInitramfs host config ++ CpioBuilder.body 1 (overlayFiles agent)))
      else some (config, none) := by
  rw [injectGuestAgent, hagent]
  simp only [buildAgentOverlay_eq, Option.bind_eq_bind, Option.bind_some]

/-- **When the combined image stays readable.**  Whatever the user's initramfs and the agent are:
exactly when the initramfs has a length divisible by four and, if it is a sequence of archives,
the agent has less than `2^32` bytes. -/
theorem injectGuestAgent_keepsReadable_iff {checked : Bool} {host : Host}
    {config config' : VmConfig} {id : String} {agent image : List UInt8}
    (hagent : resolveAgentBytes host config.guestAgent = some agent)
    (hinject : injectGuestAgent checked host config id = some (config', some image)) :
    KeepsReadable (userInitramfs host config) agent image ↔
      (userInitramfs host config).length % 4 = 0 ∧
        ((∃ recs, parse (userInitramfs host config) = some recs) → agent.length < 2 ^ 32) := by
  rw [injectGuestAgent_eq checked host config id agent hagent] at hinject
  split_ifs at hinject
  · cases hinject
    exact keepsReadable_append_iff _ _
  · cases hinject

/-- A host with an embedded agent, no readable files and a writable temporary directory. -/
def plainHost : Host where
  agentBytes := ascii "ELF"
  read _ := none
  write _ _ := true
  tempDir := "/tmp"

/-- Without an initramfs of the user's the overlay starts at offset zero. -/
theorem injectGuestAgent_without_initramfs : ∃ config' image,
    injectGuestAgent true plainHost ⟨"vmlinux", none, none, 256, 1, none, none, [], 3, .auto⟩ "vm" =
      some (config', some image) ∧
    KeepsReadable [] (ascii "ELF") image := by
  have hinject := injectGuestAgent_eq true plainHost
    ⟨"vmlinux", none, none, 256, 1, none, none, [], 3, .auto⟩ "vm" (ascii "ELF") rfl
  exact ⟨_, _, hinject,
    (injectGuestAgent_keepsReadable_iff rfl hinject).2 ⟨rfl, fun _ => by decide⟩⟩

/-- A host with an initramfs of one archive and a single zero byte behind it. -/
def oddHost : Host where
  agentBytes := ascii "ELF"
  read _ := some (CpioBuilder.body 1 [] ++ [0])
  write _ _ := true
  tempDir := "/tmp"

/-- Behind an initramfs of 125 bytes the overlay is not found: the combined image does not even
parse. -/
theorem odd_initramfs_loses_agent : ∃ image,
    injectGuestAgent true oddHost
        ⟨"vmlinux", some "initrd", none, 256, 1, none, none, [], 3, .auto⟩ "vm" =
      some (⟨"vmlinux", some (imagePath oddHost "vm"), none, 256, 1, none, none, [], 3, .auto⟩,
        some image) ∧
    ¬KeepsReadable (CpioBuilder.body 1 [] ++ [0]) (ascii "ELF") image ∧ parse image = none := by
  refine ⟨(CpioBuilder.body 1 [] ++ [0]) ++ CpioBuilder.body 1 (overlayFiles (ascii "ELF")),
    ?_, ?_, ?_⟩
  · rw [injectGuestAgent]
    simp only [resolveAgentBytes, oddHost, buildAgentOverlay_eq]
    rfl
  · rw [keepsReadable_append_iff]
    rintro ⟨halign, -⟩
    revert halign
    decide +kernel
  · have hzero : parseFrom 124 [0] = some [] := rfl
    have huser : parse (CpioBuilder.body 1 [] ++ [0]) =
        some [CpioBuilder.trailerRecord 0 1] := by
      have hbody : parseFrom 0 (CpioBuilder.body 1 []) = some [CpioBuilder.trailerRecord 0 1] :=
        CpioBuilder.parseFrom_body rfl (List.forall_mem_nil _)
      have hlen : (CpioBuilder.body 1 []).length = 124 := rfl
      rw [parse, parseFrom_append hbody, hlen, hzero]
      rfl
    have hlen : (CpioBuilder.body 1 [] ++ [0]).length = 125 := rfl
    obtain ⟨bytes, hcons⟩ : ∃ bytes, CpioBuilder.body 1 (overlayFiles (ascii "ELF")) =
        48 :: bytes := ⟨_, rfl⟩
    rw [parse, parseFrom_append huser, hlen, hcons,
      parseFrom_unaligned (by decide) (by decide)]
    rfl

end Hitz.Daemon

/-
**What a download through the shell leaves behind.**

A command that cannot be started, or ends with a code other than zero, leaves nothing at the
destination: whatever it wrote there is removed.  Any other failure to run it, an interrupt among
them, is passed on at once, and what the command wrote until then stays.

Main definitions:

* `ReleaseFetch.World.commandResult` — what the next command ends with;
* `ReleaseFetch.Deposit.WritesTo` — bytes that are written to a path.

Main results:

* `ReleaseFetch.Session.deposit_narrows` — bytes that are written bring no directory;
* `ReleaseFetch.Shell.download_leftover` — what a failed download leaves at its destination;
* `ReleaseFetch.Shell.download_leaves_partial` — an interrupted command leaves a part of a file.
-/

import Mathlib.Data.List.Induction
import ReleaseFetch.Proofs.Disk.Standing
import ReleaseFetch.Proofs.Transfer.Deciding
import ReleaseFetch.Proofs.Transfer.Landing

set_option autoImplicit false

namespace ReleaseFetch

open Disk Session

/-- What the next command ends with: a code and what it says, or a failure to run it. -/
def World.commandResult (w : World) : Except Failure (Int × String) :=
  match w.shellReplies with
  | [] => .error noCommand
  | reply :: _ =>
    match reply.failure with
    | some f => .error f
    | none => .ok (reply.code, reply.stderr)

/-- Bytes are written to the path. -/
def Deposit.WritesTo (x : Deposit) (p : Path) : Prop := x.path = p ∧ ∃ b m, x.entry = .file b m

/-! ### Files that are written -/

namespace Disk

variable {d : Disk} {p : Path}

/-- Every front of a path to a directory leads to one. -/
theorem isDirectory?_front {r : Root} {names : List String} (more : List String)
    (h : d.isDirectory? ⟨r, names ++ more⟩ = .ok true) : d.isDirectory? ⟨r, names⟩ = .ok true := by
  -- the names behind the front are taken away one by one, the last one first
  induction more using List.reverseRecOn with
  | nil => rwa [List.append_nil] at h
  | append_singleton more n ih =>
      have hparent := isDirectory?_parent h
      rw [Path.parent, ← List.append_assoc, List.dropLast_concat] at hparent
      exact ih hparent

/-- The directories on the way to an entry of a directory are there. -/
theorem isDirectory?_of_mem_waysTo (h : d.isDirectory? p.parent = .ok true) {q : Path}
    (hq : q ∈ waysTo p) : d.isDirectory? q = .ok true := by
  obtain ⟨n, hn, rfl⟩ := List.mem_map.1 hq
  have hlt := List.mem_range.1 hn
  have htake : p.names.dropLast.take n = p.names.take n := by
    rw [List.dropLast_eq_take, List.take_take, Nat.min_eq_left (by omega)]
  have hfront : p.parent = ⟨p.root, p.names.take n ++ p.names.dropLast.drop n⟩ := by
    rw [← htake, List.take_append_drop]
    rfl
  rw [hfront] at h
  exact isDirectory?_front _ h

end Disk

namespace Session

variable {d : Disk}

/-- No directory is made where all are there. -/
theorem foldl_makeWay_there {ps : List Path} (h : ∀ p ∈ ps, d.isDirectory? p = .ok true) :
    ps.foldl makeWay d = d := by
  induction ps with
  | nil => rfl
  | cons p ps ih =>
      have hp : makeWay d p = d := by rw [makeWay, makeDirectory_there (h p (by simp))]
      rw [List.foldl_cons, hp]
      exact ih fun q hq => h q (List.mem_cons_of_mem _ hq)

/-- **Bytes that are written to a path in a directory bring no directory and no link.** -/
theorem deposit_narrows {x : Deposit} {p : Path} (hx : x.WritesTo p)
    (hp : d.isDirectory? p.parent = .ok true) : (deposit d x).RoutesIn d := by
  obtain ⟨rfl, b, m, hentry⟩ := hx
  have hdeposited := deposited d x
  rw [foldl_makeWay_there fun q hq => isDirectory?_of_mem_waysTo hp hq] at hdeposited
  generalize deposit d x = e at hdeposited ⊢
  cases hdeposited with
  | nothing => exact .refl d
  | directory h => cases hentry.symm.trans h
  | file _ hdir _ => exact (turned_put hdir _ _).narrows
  | link h _ => cases hentry.symm.trans h

theorem foldl_deposit_narrows {xs : List Deposit} {p : Path} (hxs : ∀ x ∈ xs, x.WritesTo p)
    (hp : d.isDirectory? p.parent = .ok true) : (xs.foldl deposit d).RoutesIn d := by
  induction xs generalizing d with
  | nil => exact .refl d
  | cons x xs ih =>
      have hrest := ih (fun y hy => hxs y (List.mem_cons_of_mem _ hy))
        ((deposit_routesIn d x).isDirectory? hp)
      exact hrest.trans (deposit_narrows (hxs x (by simp)) hp)

/-- Where there was no directory, a command that writes to the path makes none. -/
theorem afterCommand_noDirectory {w : World} {p : Path}
    (hp : w.disk.isDirectory? p.parent = .ok true) (hno : ¬w.disk.HasDirectory p)
    (hwrites : ∀ reply ∈ w.shellReplies.head?, ∀ x ∈ reply.writes, x.WritesTo p) :
    ¬w.afterCommand.HasDirectory p := by
  intro hdir
  unfold World.afterCommand at hdir
  split at hdir
  · exact hno hdir
  · next reply _ hreplies =>
    exact hno ((foldl_deposit_narrows (hwrites reply (by rw [hreplies]; rfl)) hp).hasDirectory hdir)

end Session

/-! ### The download -/

namespace Shell

/-- A command that is run. -/
theorem perform_command (command : List String) (w : World) :
    ∃ v, (execute command).perform w = (w.commandResult, v) ∧ v.disk = w.afterCommand := by
  rw [perform_execute, World.commandResult, World.afterCommand]
  cases w.shellReplies with
  | nil => exact ⟨_, rfl, rfl⟩
  | cons reply rest => exact ⟨_, rfl, rfl⟩

/-- Discarding and then failing leaves what discarding leaves. -/
theorem discard_fail {p : Path} {q : Problem} {v w' : World} {f : Failure}
    (hno : ¬v.disk.HasDirectory p)
    (hout : (Files.discard p >>= fun _ => (fail q : Session Unit)).perform v = (.error f, w')) :
    w'.disk.Vacant p := by
  have hvacant := Files.discard_vacant hno
  rw [perform_bind] at hout
  rcases hdiscard : (Files.discard p).perform v with ⟨result, u⟩
  rw [hdiscard] at hout hvacant
  cases result with
  | error g =>
      obtain ⟨-, rfl⟩ := Prod.mk.inj hout
      exact hvacant
  | ok removed =>
      obtain ⟨-, rfl⟩ := Prod.mk.inj hout
      exact hvacant

/-- What a command leaves that fails. -/
theorem launch_leftover {executable : String} {destination : Path} {j : Script.Job} {w w' : World}
    {f : Failure} (hno : ¬w.afterCommand.HasDirectory destination)
    (hout : (launch executable destination j).perform w = (.error f, w')) :
    ((∀ g, w.commandResult = .error g → g.isSystem = true) → w'.disk.Vacant destination) ∧
      ∀ g, w.commandResult = .error g → g.isSystem = false →
        f = g ∧ w'.disk = w.afterCommand := by
  obtain ⟨v, hexecute, hv⟩ := perform_command (command executable j) w
  rw [← hv] at hno
  unfold launch at hout
  rw [perform_bind, perform_attempt, hexecute] at hout
  simp only at hout
  cases hresult : w.commandResult with
  | error g =>
      rw [hresult] at hout
      simp only at hout
      cases hsystem : g.isSystem with
      | true =>
          rw [hsystem, if_pos rfl] at hout
          refine ⟨fun _ => discard_fail hno hout, ?_⟩
          rintro g' hg' hother
          rw [← Except.error.inj hg', hsystem] at hother
          cases hother
      | false =>
          rw [hsystem] at hout
          obtain ⟨hf, rfl⟩ := Prod.mk.inj hout
          refine ⟨fun hall => ?_, fun g' hg' _ => ⟨?_, hv⟩⟩
          · rw [hall g rfl] at hsystem
            cases hsystem
          · exact (Except.error.inj hf).symm.trans (Except.error.inj hg')
  | ok answer =>
      obtain ⟨code, stderr⟩ := answer
      rw [hresult] at hout
      simp only at hout
      refine ⟨fun _ => ?_, fun g hg => by cases hg⟩
      split at hout
      · exact discard_fail hno hout
      · cases hout

/-- **What a failed download leaves at its destination**, which is no directory and lies in one that
is there: nothing, if the command could not be started or ended with a code other than zero.  Any
other failure to run the command is passed on, and the disk is left as the command left it. -/
theorem download_leftover (h : Host) (executable url : String) {destination : Path} (o : Options)
    {j : Script.Job} (hjob : jobFor h url destination o = .ok j) {w v w' : World} {f : Failure}
    (hparent : (Files.ensureDirectory destination.parent).perform w = (.ok (), v))
    (hno : ¬v.disk.HasDirectory destination)
    (hwrites : ∀ reply ∈ v.shellReplies.head?, ∀ x ∈ reply.writes, x.WritesTo destination)
    (hout : (download h executable url destination o).perform w = (.error f, w')) :
    ((∀ g, v.commandResult = .error g → g.isSystem = true) → w'.disk.Vacant destination) ∧
      ∀ g, v.commandResult = .error g → g.isSystem = false →
        f = g ∧ w'.disk = v.afterCommand := by
  have hdownload : download h executable url destination o = (do
      Files.ensureDirectory destination.parent
      log .info .download "Downloading with Invoke-WebRequest"
      launch executable destination (← job h url destination o)) := rfl
  obtain ⟨k, hk⟩ := job_yields h url destination o
  have hnone := afterCommand_noDirectory (Files.isDirectory?_of_ensureDirectory hparent) hno hwrites
  rw [hdownload, perform_bind, hparent] at hout
  simp only at hout
  rw [perform_bind, perform_log] at hout
  simp only at hout
  rw [perform_bind, hk, hjob] at hout
  simp only at hout
  -- the journal has grown, which neither the command nor the disk sees
  obtain ⟨u, hlaunch, hdisk, hreplies⟩ : ∃ u : World,
      (launch executable destination j).perform u = (.error f, w') ∧ u.disk = v.disk ∧
        u.shellReplies = v.shellReplies := ⟨_, hout, rfl, rfl⟩
  have hresult : u.commandResult = v.commandResult := by
    rw [World.commandResult, World.commandResult, hreplies]
  have hafter : u.afterCommand = v.afterCommand := by
    rw [World.afterCommand, World.afterCommand, hreplies, hdisk]
  rw [← hafter] at hnone ⊢
  rw [← hresult]
  exact launch_leftover hnone hlaunch

/-- A command that writes a part of a file and ends with a code, or is interrupted. -/
def partialReply (code : Int) (failure : Option Failure) : ShellReply :=
  ⟨[⟨⟨.here, ["dl", "tool"]⟩, .file [1] fileMode⟩], code, "", failure⟩

/-- The download of a file through the shell of a Windows host, with nothing set. -/
def plainDownload : Session Unit :=
  download ⟨"win32", "AMD64", []⟩ defaultExecutable "https://a.org/x" ⟨.here, ["dl", "tool"]⟩
    ⟨[], none, defaultTrustedHost, none⟩

/-- A world in which a command is to come. -/
def commandWorld (reply : ShellReply) : World :=
  ⟨⟨[(["dl"], .directory)], []⟩, [], [reply], [], [], [], ""⟩

/-- A command that ends with a code other than zero leaves nothing. -/
theorem download_leftover_refused :
    ∃ w', plainDownload.perform (commandWorld (partialReply 1 none)) =
        (.error (.problem (.commandFailed 1 "")), w') ∧
      w'.disk.Vacant ⟨.here, ["dl", "tool"]⟩ := by
  rcases hperform : plainDownload.perform (commandWorld (partialReply 1 none)) with ⟨out, w'⟩
  obtain rfl : out = .error (.problem (.commandFailed 1 "")) := by
    have hout : (plainDownload.perform (commandWorld (partialReply 1 none))).1 =
        .error (.problem (.commandFailed 1 "")) := by decide +kernel
    rwa [hperform] at hout
  have hfind : (commandWorld (partialReply 1 none)).disk.find false ⟨.here, ["dl", "tool"]⟩ =
      .ok ⟨["tool", "dl"], none⟩ := by decide +kernel
  refine ⟨w', rfl, (download_leftover ⟨"win32", "AMD64", []⟩ defaultExecutable "https://a.org/x"
    ⟨[], none, defaultTrustedHost, none⟩ (j := ⟨"https://a.org/x", "dl/tool", [], none, none, none⟩)
    (by decide +kernel) (Files.ensureDirectory_there (by decide +kernel)) ?_ ?_ hperform).1 ?_⟩
  · rintro ⟨l, hl⟩
    rw [hfind] at hl
    cases hl
  · intro reply hreply x hx
    obtain rfl := Option.some.inj hreply
    obtain rfl := List.mem_singleton.1 hx
    exact ⟨rfl, [1], fileMode, rfl⟩
  · intro g hg
    cases hg

/-- **An interrupted command leaves a part of a file.** -/
theorem download_leaves_partial :
    (plainDownload.perform (commandWorld (partialReply 0 (some .interrupt)))).1 =
        .error .interrupt ∧
      (plainDownload.perform (commandWorld (partialReply 0 (some .interrupt)))).2.disk.read
        ⟨.here, ["dl", "tool"]⟩ = .ok [1] := by
  decide +kernel

end Shell

end ReleaseFetch

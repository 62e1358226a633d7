/-
**Where the binary is.**

The name of the binary is worked out three times.  An installation copies the asset to the name that
its host asks for; it then looks for the bare name before the one with a suffix, whatever the host;
and a configuration puts the suffix of the host behind the bare name.  The copy is always where the
configuration says.  What an installation reports is that place off Windows; on Windows it is that
place as long as nothing stands at the bare name, and else it is the bare name, where something
other than the binary stands.

Main results:

* `ReleaseFetch.Disk.executable?_cases` — the bare name is found, or it is vacant and the other is;
* `ReleaseFetch.Installer.binaryPath_eq` — a configuration names the place of the copy;
* `ReleaseFetch.Installer.install_reports` — where the binary is after an installation, and when
  that is what the installation reports;
* `ReleaseFetch.Installer.install_misreports` — an installation that reports another file.
-/

import ReleaseFetch.Proofs.Install.Repeat

set_option autoImplicit false

namespace ReleaseFetch

open Disk Session

/-- The executable that is found has the bare name, or nothing stands there and it has the suffix.
-/
theorem Disk.executable?_cases {d : Disk} {directory p : Path} {name : String}
    (h : d.executable? directory name = .ok (some p)) :
    (d.exists? (directory.child name) = .ok true ∧ p = directory.child name) ∨
      (d.exists? (directory.child name) = .ok false ∧ p = directory.child (name ++ ".exe")) := by
  cases hbare : d.exists? (directory.child name) with
  | error f =>
      rw [executable?, hbare] at h
      cases h
  | ok found =>
      cases found with
      | true =>
          rw [executable?_of_exists hbare] at h
          exact .inl ⟨rfl, (Option.some.inj (Except.ok.inj h)).symm⟩
      | false =>
          refine .inr ⟨rfl, ?_⟩
          rw [executable?, hbare] at h
          cases hsuffixed : d.exists? (directory.child (name ++ ".exe")) with
          | error f =>
              rw [hsuffixed] at h
              cases h
          | ok found =>
              rw [hsuffixed] at h
              cases found with
              | true => exact (Option.some.inj (Except.ok.inj h)).symm
              | false => cases h

/-- A suffix makes another path. -/
theorem Path.child_ne_suffixed (p : Path) {name : String} (h : '/' ∉ name.toList) :
    p.child name ≠ p.child (name ++ ".exe") := by
  have hlength : (name ++ ".exe").length = name.length + 4 := String.length_append name ".exe"
  have hentry : IsEntryName (name ++ ".exe") := by
    refine ⟨by simp [h], ?_, ?_, ?_⟩
    all_goals
      intro heq
      rw [heq] at hlength
      have hshort : ("..".length = 2 ∧ ".".length = 1 ∧ "".length = 0) := ⟨rfl, rfl, rfl⟩
      omega
  have hroot : (ofText name).root = .here := by rw [ofText_of_noSlash h]
  rw [p.child_eq hentry, p.child_of_root hroot, ofText_of_noSlash h]
  intro heq
  have hnames := List.append_cancel_left (Path.mk.inj heq).2
  split at hnames
  · cases hnames
  · have hname : name = name ++ ".exe" := (List.cons.inj hnames).1
    rw [← hname] at hlength
    omega

namespace Installer

variable {i : Installer} {o : Order} {p : Path} {w w' : World}

/-- The name of the copy is the bare name with the suffix of the host. -/
theorem installedName_eq (i : Installer) : i.installedName = i.config.toolName ++ i.host.extension := by
  unfold installedName Host.extension
  split
  · rfl
  · exact String.append_empty.symm

/-- **A configuration names the place of the copy.** -/
theorem binaryPath_eq (i : Installer) :
    i.config.binaryPath i.host = i.config.binDir.child i.installedName := by
  rw [Config.binaryPath, installedName_eq]

/-- **Where the binary is, and what an installation reports.**  The copy with the bytes of the asset
is where the configuration says.  The installation reports that place exactly if the host is not
Windows or nothing stands at the bare name, and else it reports the bare name. -/
theorem install_reports (htool : '/' ∉ i.config.toolName.toList)
    (hdest : o.destination = i.config.binDir) (hok : (i.install o).perform w = (.ok p, w')) :
    (∃ b, w'.disk.read (i.config.binaryPath i.host) = .ok b ∧
      w'.disk.read (i.assetPath o.version o.target) = .ok b) ∧
    (p = i.config.binaryPath i.host ↔ i.host.isWindows = false ∨
      w'.disk.exists? (i.config.binDir.child i.config.toolName) = .ok false) ∧
    (p ≠ i.config.binaryPath i.host → p = i.config.binDir.child i.config.toolName) := by
  obtain ⟨-, v₁, v₂, v₃, v₄, -, -, hplace, -, hw'⟩ := install_ok hok
  obtain ⟨x, l, b, k, m, hplaced⟩ := place_placed hplace
  rw [← hw', hdest] at hplaced
  have hcopied := hplaced.copied
  rw [← binaryPath_eq] at hcopied
  refine ⟨⟨b, ?_, ?_⟩, ?_⟩
  · rw [Disk.read, hcopied.target]
  · rw [Disk.read, hcopied.source]
  -- what is found, against the name that the host asks for
  · cases hhost : i.host.isWindows with
    | false =>
        have hp : p = i.config.binaryPath i.host := by
          rw [binaryPath_eq]
          exact (hplaced.mode hhost).1
        exact ⟨iff_of_true hp (.inl rfl), fun hne => absurd hp hne⟩
    | true =>
        have hpath : i.config.binaryPath i.host =
            i.config.binDir.child (i.config.toolName ++ ".exe") := by
          rw [Config.binaryPath, Host.extension, hhost]
          rfl
        rw [hpath]
        have hne := i.config.binDir.child_ne_suffixed htool
        rcases executable?_cases hplaced.binary with ⟨hbare, rfl⟩ | ⟨hbare, rfl⟩
        · exact ⟨iff_of_false hne (by simp [hbare]), fun _ => rfl⟩
        · exact ⟨iff_of_true rfl (.inr hbare), fun h => absurd rfl h⟩

/-- The installer of a tool on Windows. -/
def ofWindowsTool : Installer := { ofTool ⟨.here, ["cache"]⟩ with host := ⟨"win32", "AMD64", []⟩ }

/-- An order for the first version, into the directory for binaries. -/
def binOrder : Order := { firstOrder with destination := ⟨.here, ["bin"]⟩ }

/-- A disk with the asset of Windows in the cache. -/
def cachedDisk : Disk :=
  ⟨[(["cache"], .directory), (["tool-v1-t1.exe", "cache"], .file [1] 0o644)], []⟩

/-- On Windows, into a directory that is not there yet, the binary is reported where it is. -/
theorem install_reports_suffixed :
    ∃ w', (ofWindowsTool.install binOrder).perform (.fresh cachedDisk []) =
        (.ok ⟨.here, ["bin", "tool.exe"]⟩, w') ∧
      ofWindowsTool.config.binaryPath ofWindowsTool.host = ⟨.here, ["bin", "tool.exe"]⟩ ∧
      w'.disk.exists? ⟨.here, ["bin", "tool"]⟩ = .ok false ∧
      ∃ b, w'.disk.read ⟨.here, ["bin", "tool.exe"]⟩ = .ok b ∧
        w'.disk.read ⟨.here, ["cache", "tool-v1-t1.exe"]⟩ = .ok b := by
  have hok : ((ofWindowsTool.install binOrder).perform (.fresh cachedDisk [])).1 =
      .ok ⟨.here, ["bin", "tool.exe"]⟩ := by decide +kernel
  rcases hperform : (ofWindowsTool.install binOrder).perform (.fresh cachedDisk []) with ⟨result, w'⟩
  rw [hperform] at hok
  obtain rfl : result = .ok ⟨.here, ["bin", "tool.exe"]⟩ := hok
  have hpath : ofWindowsTool.config.binaryPath ofWindowsTool.host =
      ⟨.here, ["bin", "tool.exe"]⟩ := by decide +kernel
  obtain ⟨hfiles, hreports, -⟩ := install_reports (by decide +kernel) (by rfl) hperform
  rw [hpath] at hfiles hreports
  have habsent := (hreports.1 rfl).resolve_left (by decide +kernel)
  exact ⟨w', rfl, hpath, habsent, hfiles⟩

/-- **An installation may report another file**: on Windows, something that stands at the bare name
is found before the binary. -/
theorem install_misreports :
    let w := World.fresh (cachedDisk.put ["bin"] .directory |>.put ["tool", "bin"] (.file [0] 0o644)) []
    ((ofWindowsTool.install binOrder).perform w).1 = .ok ⟨.here, ["bin", "tool"]⟩ ∧
      ofWindowsTool.config.binaryPath ofWindowsTool.host = ⟨.here, ["bin", "tool.exe"]⟩ ∧
      ((ofWindowsTool.install binOrder).perform w).2.disk.read ⟨.here, ["bin", "tool"]⟩ = .ok [0] ∧
      ((ofWindowsTool.install binOrder).perform w).2.disk.read
        ⟨.here, ["cache", "tool-v1-t1.exe"]⟩ = .ok [1] := by
  decide +kernel

end Installer

end ReleaseFetch

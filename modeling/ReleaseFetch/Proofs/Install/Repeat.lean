/-
**Installing the same thing again.**

An installation that succeeds leaves its two directories, the asset, and a binary with the bytes and
the mode that another installation would give it.  So the same order, given again, uses the asset as
it is and writes what is there already: nothing is sent, nothing is run, and the disk looks the
same.  The directories are there because the asset and the binary lie in them.  Only the name of a
tool that starts with a slash leads elsewhere; with such a name a download may replace a link on the
way to one of the directories.

Main definitions:

* `ReleaseFetch.Installer.Placed` — an asset and a binary that has its bytes and its mode;
* `ReleaseFetch.Installer.Settled` — what an installation finds where there is nothing left to do.

Main results:

* `ReleaseFetch.Installer.place_placed`, `ReleaseFetch.Installer.Placed.again` — placing an asset
  leaves it placed, and placing it again changes nothing;
* `ReleaseFetch.Installer.Settled.install` — an installation with nothing left to do;
* `ReleaseFetch.Installer.install_again` — the second of two installations;
* `ReleaseFetch.Installer.install_again_blocked` — a second installation that fails.
-/

import ReleaseFetch.Proofs.Install.Frame
import ReleaseFetch.Proofs.Transfer.Landing

set_option autoImplicit false

namespace ReleaseFetch

open Disk Session

/-! ### Files that are written again -/

namespace Disk

variable {d e : Disk} {p q : Path} {x l : Location} {b : List UInt8} {k m : Nat}

theorem writable_of_file (h : d.find true p = .ok ⟨l, some (.file b m)⟩) : d.Writable p l := by
  have hl : d.get? l = some (.file b m) := find_entry h (by simp)
  exact ⟨hl ▸ h, fun y hy => ⟨b, m, Option.some.inj (hy.symm.trans hl)⟩⟩

namespace Writable

/-- Writing a file takes no route away. -/
theorem routesIn (h : d.Writable p l) (b : List UInt8) (m : Nat) :
    d.RoutesIn (d.put l (.file b m)) := (turned_put h.vacant b m).routesIn h.old

/-- What is written is there. -/
theorem find_put (h : d.Writable p l) (b : List UInt8) (m : Nat) :
    (d.put l (.file b m)).find true p = .ok ⟨l, some (.file b m)⟩ := by
  have hon : Place.on ⟨l, d.get? l⟩ (d.put l (.file b m)) = ⟨l, some (.file b m)⟩ := by
    rw [Place.on_of_ne _ h.vacant, (turned_put h.vacant b m).shows]
  rw [(h.routesIn b m).find h.found (.inr (by simp [hon])), hon]

/-- A file elsewhere stays. -/
theorem find_put_other (h : d.Writable p l) (hq : d.find true q = .ok ⟨x, some (.file b k)⟩)
    (hx : x ≠ l) (b' : List UInt8) (m : Nat) :
    (d.put l (.file b' m)).find true q = .ok ⟨x, some (.file b k)⟩ := by
  have hentry : d.get? x = some (.file b k) := find_entry hq (by simp)
  have hon : Place.on ⟨x, some (.file b k)⟩ (d.put l (.file b' m)) = ⟨x, some (.file b k)⟩ := by
    rw [Place.on_of_ne _ (by simp), (turned_put h.vacant b' m).other hx, hentry]
  rw [(h.routesIn b' m).find hq (.inr (by simp [hon])), hon]

end Writable

/-- One path leads to a file, and another to a file of its own with the same bytes. -/
structure Copied (d : Disk) (source target : Path) (x l : Location) (b : List UInt8) (k m : Nat) :
    Prop where
  source : d.find true source = .ok ⟨x, some (.file b k)⟩
  target : d.find true target = .ok ⟨l, some (.file b m)⟩
  apart : x ≠ l

/-- **A copy that succeeded is a file of its own with the same bytes.** -/
theorem copied_of_copyFile (h : d.copyFile p q = .ok e) :
    d.RoutesIn e ∧ ∃ x l b k m, e.Copied p q x l b k m := by
  obtain ⟨hsame, b, hread, hwrite⟩ := copyFile_ok h
  obtain ⟨l, m, hwritable, rfl⟩ := write_turned hwrite
  obtain ⟨x, k, hsource⟩ : ∃ x k, d.find true p = .ok ⟨x, some (.file b k)⟩ := by
    unfold Disk.read at hread
    split at hread
    · cases hread
    · next place hfind =>
      obtain ⟨x, y⟩ := place
      split at hread
      · next b' k hy =>
        obtain rfl : y = some (.file b' k) := hy
        obtain rfl := Except.ok.inj hread
        exact ⟨x, k, hfind⟩
      · cases hread
      · cases hread
  -- the two would be the same file if they stood at the same place
  have hne : x ≠ l := by
    rintro rfl
    have hx : d.get? x = some (.file b k) := find_entry hsource (by simp)
    have hstatus := status_eq_ok_iff.2 ⟨hsource, by simp⟩
    have hstatus' := status_eq_ok_iff.2 ⟨hwritable.found, by simp [hx]⟩
    unfold isSame at hsame
    rw [hstatus, hstatus'] at hsame
    simp at hsame
  exact ⟨hwritable.routesIn b m, x, l, b, k, m,
    ⟨hwritable.find_put_other hsource hne b m, hwritable.find_put b m, hne⟩⟩

namespace Copied

theorem writable (h : d.Copied p q x l b k m) : d.Writable q l := writable_of_file h.target

theorem ne_root (h : d.Copied p q x l b k m) : l ≠ [] := find_ne_root h.target (by simp)

/-- **Copying again writes what is there.** -/
theorem copyFile (h : d.Copied p q x l b k m) :
    d.copyFile p q = .ok (d.put l (.file b m)) := by
  have hsame : d.isSame p q = false := by
    unfold isSame
    rw [status_eq_ok_iff.2 ⟨h.source, by simp⟩, status_eq_ok_iff.2 ⟨h.target, by simp⟩]
    simpa using h.apart
  unfold Disk.copyFile
  rw [noNul_of_found h.source, noNul_of_found h.target, hsame]
  simp only [Bool.or_self, Bool.false_eq_true, if_false]
  rw [Disk.read, h.source]
  simp only
  rw [Disk.write, h.target]

theorem setMode (h : d.Copied p q x l b k m) (mode : Nat) :
    d.setMode q mode = .ok (d.put l (.file b mode)) := by
  rw [Disk.setMode, status_eq_ok_iff.2 ⟨h.target, by simp⟩]

/-- The copy stays one when its mode is set. -/
theorem put (h : d.Copied p q x l b k m) (mode : Nat) :
    (d.put l (.file b mode)).Copied p q x l b k mode :=
  ⟨h.writable.find_put_other h.source h.apart b mode, h.writable.find_put b mode, h.apart⟩

theorem agrees (h : d.Copied p q x l b k m) : (d.put l (.file b m)).Agrees d :=
  .put_same h.ne_root (find_entry h.target (by simp))

end Copied

end Disk

namespace Installer

variable {i : Installer} {o : Order} {asset directory p : Path} {w w' u : World}

/-! ### An asset that is placed -/

/-- An asset is placed: the binary is a copy of it, with the mode of an executable off Windows, and
it is the one that is found. -/
structure Placed (i : Installer) (asset directory p : Path) (d : Disk) (x l : Location)
    (b : List UInt8) (k m : Nat) : Prop where
  above : d.isDirectory? (directory.child i.installedName).parent = .ok true
  copied : d.Copied asset (directory.child i.installedName) x l b k m
  binary : d.executable? directory i.config.toolName = .ok (some p)
  mode : i.host.isWindows = false → p = directory.child i.installedName ∧ m = Files.executableMode

/-- **Placing an asset leaves it placed.** -/
theorem place_placed (hok : (i.place asset directory).perform w = (.ok p, w')) :
    ∃ x l b k m, i.Placed asset directory p w'.disk x l b k m := by
  obtain ⟨v, hextract, hmode⟩ := place_steps hok
  obtain ⟨hcopy, hfound⟩ := extract_steps hextract
  obtain ⟨_, v₀, hensure, hchange⟩ := bind_ok hcopy
  obtain ⟨e, hcopyFile, rfl⟩ := change_ok hchange
  obtain ⟨hroutes, x, l, b, k, m, hcopied⟩ := copied_of_copyFile hcopyFile
  have habove := hroutes.isDirectory? (Files.isDirectory?_of_ensureDirectory hensure)
  rcases hmode with ⟨hhost, rfl⟩ | ⟨hhost, hset⟩
  · exact ⟨x, l, b, k, m, habove, hcopied, hfound, fun h => by rw [hhost] at h; cases h⟩
  · -- off Windows the copy has the bare name, which comes first
    have hinstalled := installedName_of_not_windows hhost
    have hfinds {u : Disk} {m : Nat}
        (h : u.Copied asset (directory.child i.installedName) x l b k m) :
        u.executable? directory i.config.toolName =
          .ok (some (directory.child i.installedName)) := by
      rw [hinstalled] at h ⊢
      exact executable?_of_exists (exists?_iff.2 ⟨_, h.target, by simp⟩)
    have hbare := hfinds hcopied
    rw [hbare] at hfound
    obtain rfl := Option.some.inj (Except.ok.inj hfound)
    rw [Files.makeExecutable, perform_change] at hset
    simp only [hcopied.setMode] at hset
    obtain rfl := (Prod.mk.inj hset).2
    have hroutes' := hcopied.writable.routesIn b Files.executableMode
    have hcopied' := hcopied.put Files.executableMode
    exact ⟨x, l, b, k, _, hroutes'.isDirectory? habove, hcopied', hfinds hcopied',
      fun _ => ⟨rfl, rfl⟩⟩

/-- **Placing an asset again changes nothing that can be seen.** -/
theorem Placed.again {x l : Location} {b : List UInt8} {k m : Nat}
    (h : i.Placed asset directory p u.disk x l b k m) :
    ∃ e, (i.place asset directory).perform u = (.ok p, { u with disk := e }) ∧
      e.Agrees u.disk := by
  have hagrees := h.copied.agrees
  have hcopy : (Files.copyExecutable asset (directory.child i.installedName)).perform u =
      (.ok (), { u with disk := u.disk.put l (.file b m) }) := by
    rw [Files.copyExecutable, perform_bind, Files.ensureDirectory_there h.above]
    simp only
    rw [perform_change, h.copied.copyFile]
  have hextract : (i.extract asset directory).perform u =
      (.ok p, { u with disk := u.disk.put l (.file b m) }) := by
    rw [extract, perform_bind, hcopy]
    simp only
    rw [perform_bind, Files.findBinary_eq, perform_look, hagrees.executable?, h.binary]
    rfl
  rw [place, perform_bind, hextract]
  cases hhost : i.host.isWindows with
  | true => exact ⟨_, rfl, hagrees⟩
  | false =>
      obtain ⟨hp, hm⟩ := h.mode hhost
      have hcopied := h.copied.put m
      refine ⟨(u.disk.put l (.file b m)).put l (.file b m), ?_, hcopied.agrees.trans hagrees⟩
      have hset : (Files.makeExecutable p).perform { u with disk := u.disk.put l (.file b m) } =
          (.ok (), { u with disk := (u.disk.put l (.file b m)).put l (.file b m) }) := by
        rw [Files.makeExecutable, perform_change, hp]
        simp only [hcopied.setMode]
        rw [hm]
      simp only [Bool.not_false, if_true]
      rw [perform_bind, hset]
      rfl

/-! ### An installation with nothing left to do -/

/-- What an installation finds where there is nothing left to do. -/
structure Settled (i : Installer) (o : Order) (p : Path) (d : Disk) : Prop where
  destination : d.isDirectory? o.destination = .ok true
  cache : d.isDirectory? i.cacheDir = .ok true
  placed : ∃ x l b k m, i.Placed (i.assetPath o.version o.target) o.destination p d x l b k m

/-- **Where there is nothing left to do, nothing is done.** -/
theorem Settled.install (h : i.Settled o p u.disk) (hcheck : o.check = .ok ())
    (hforce : o.force = false) :
    ∃ v, (i.install o).perform u = (.ok p, v) ∧ v.traffic = u.traffic ∧ v.disk.Agrees u.disk := by
  obtain ⟨x, l, b, k, m, hplaced⟩ := h.placed
  have hexists := exists?_iff.2 ⟨_, hplaced.copied.source, by simp⟩
  obtain ⟨j, hobtain⟩ := obtain_of_cached (Files.ensureDirectory_there h.cache) hforce hexists
  rw [install_eq, perform_bind, hcheck, perform_give]
  change ∃ v, (Files.ensureDirectory o.destination >>= _).perform u = _ ∧ _
  rw [perform_bind, Files.ensureDirectory_there h.destination]
  simp only
  rw [perform_bind, hobtain]
  simp only
  rw [finish, perform_bind, perform_log]
  simp only
  rw [perform_bind, perform_attempt]
  obtain ⟨e, hagain, hagrees⟩ := Placed.again (u := { u with
    journal := j ++ [⟨.info, .installer, s!"Extracting to {o.destination.text}", false⟩] }) hplaced
  rw [hagain]
  exact ⟨_, rfl, rfl, hagrees⟩

/-! ### The first installation -/

/-- An asset that was obtained is at its place, and what was a directory before is one still, or
has the asset where it led over. -/
theorem obtain_ok {a : Path} (hok : (i.obtain o).perform w = (.ok a, w')) :
    a = i.assetPath o.version o.target ∧
      ((i.assetPath o.version o.target).name ≠ "." → ∀ q, w.disk.isDirectory? q = .ok true →
        Aftermath (i.assetPath o.version o.target) w'.disk q) := by
  obtain ⟨_, v, hensure, -⟩ := bind_ok (i.obtain_eq o ▸ hok)
  have hgrown := Files.ensureDirectory_grows i.cacheDir w
  rw [hensure] at hgrown
  have hdir (q : Path) (hq : w.disk.isDirectory? q = .ok true) : v.disk.isDirectory? q = .ok true :=
    hgrown.routesIn.isDirectory? hq
  rcases obtain_cases (o := o) hensure with ⟨-, hrenew⟩ | ⟨-, j, hreuse⟩ | ⟨-, f, -, hrefuse⟩
  · rw [hrenew] at hok
    obtain ⟨rfl, hdownload⟩ := renew_ok hok
    exact ⟨rfl, fun hname q hq => download_aftermath hname hdownload (hdir q hq)⟩
  · rw [hreuse] at hok
    obtain ⟨heq, rfl⟩ := Prod.mk.inj hok
    exact ⟨(Except.ok.inj heq).symm, fun _ q hq => .directory (hdir q hq)⟩
  · rw [hrefuse] at hok
    cases hok

/-- What an installation that succeeded did: it passed the check, made its destination, obtained the
asset and placed it. -/
theorem install_ok (hok : (i.install o).perform w = (.ok p, w')) :
    o.check = .ok () ∧ ∃ v₁ v₂ v₃ v₄ : World,
      (Files.ensureDirectory o.destination).perform w = (.ok (), v₁) ∧
      (i.obtain o).perform v₁ = (.ok (i.assetPath o.version o.target), v₂) ∧
      (i.place (i.assetPath o.version o.target) o.destination).perform v₃ = (.ok p, v₄) ∧
      v₃.disk = v₂.disk ∧ w'.disk = v₄.disk := by
  rw [install_eq] at hok
  obtain ⟨_, w₀, hcheck, hensured⟩ := bind_ok hok
  obtain ⟨hcheck, rfl⟩ := give_ok hcheck
  obtain ⟨_, w₁, hensure, hobtained⟩ := bind_ok hensured
  obtain ⟨asset, w₂, hobtain, hfinish⟩ := bind_ok hobtained
  obtain ⟨v, v', hv, hv', hplace⟩ := finish_ok hfinish
  have hasset := (obtain_ok hobtain).1
  rw [hasset] at hobtain hplace
  refine ⟨?_, w₁, w₂, v, v', hensure, hobtain, hplace, hv, hv'⟩
  cases h : o.check with
  | error f => rw [h] at hcheck; cases hcheck
  | ok u => rfl

theorem mark_mem_assetName (i : Installer) (version target : String) :
    '-' ∈ (i.assetName version target).toList := by
  simp [assetName_toList]

/-- The name of an asset starts like the name of its tool. -/
theorem head?_assetName (i : Installer) (version target : String)
    (htool : i.config.toolName.toList.head? ≠ some '/') :
    (i.assetName version target).toList.head? ≠ some '/' := by
  rw [assetName_toList]
  cases h : i.config.toolName.toList with
  | nil => simp
  | cons c rest => simpa [h] using htool

theorem head?_installedName (i : Installer)
    (htool : i.config.toolName.toList.head? ≠ some '/') :
    i.installedName.toList.head? ≠ some '/' := by
  unfold installedName
  split
  · rw [String.toList_append]
    cases h : i.config.toolName.toList with
    | nil => decide
    | cons c rest => simpa [h] using htool
  · exact htool

/-- **The directories of an installation are there when it succeeded**, unless the name of the tool
starts with a slash: the asset and the binary lie in them. -/
theorem install_directories (htool : i.config.toolName.toList.head? ≠ some '/')
    (hok : (i.install o).perform w = (.ok p, w')) :
    w'.disk.isDirectory? o.destination = .ok true ∧ w'.disk.isDirectory? i.cacheDir = .ok true := by
  obtain ⟨-, v₁, v₂, v₃, v₄, hensure, hobtain, hplace, hv₃, hw'⟩ := install_ok hok
  obtain ⟨x, l, b, k, m, hplaced⟩ := place_placed hplace
  rw [← hw'] at hplaced
  have hnames := Path.names_ofText_ne_nil (i.mark_mem_assetName o.version o.target) (by decide)
    (by decide)
  have hroot := Path.root_ofText (i.head?_installedName htool)
  refine ⟨?_, isDirectory?_of_find_child
    (Path.root_ofText (i.head?_assetName o.version o.target htool)) hnames hplaced.copied.source⟩
  by_cases hnone : (Path.ofText i.installedName).names = []
  · -- the binary cannot be the destination itself, which was a directory
    have hself : o.destination.child i.installedName = o.destination := by
      rw [Path.child_of_root _ hroot, hnone, List.append_nil]
    have hafter := (obtain_ok hobtain).2 (Path.name_child_ne_dot _ hnames)
    have hdir := Files.isDirectory?_of_ensureDirectory hensure
    obtain ⟨_, u, hextract, -⟩ := bind_ok hplace
    obtain ⟨_, u', hcopy, -⟩ := bind_ok hextract
    rw [hself] at hcopy
    exact absurd hcopy (Aftermath.copyExecutable (hv₃ ▸ hafter _ hdir)
      (hv₃ ▸ hafter _ (isDirectory?_parent hdir)))
  · exact isDirectory?_of_find_child hroot hnone hplaced.copied.target

/-! ### The second installation -/

/-- **A second installation is silent**: the same installer, or a fresh one on the same host, sends
nothing and runs nothing, finds the same binary and leaves the disk as it looks, whatever would be
answered. -/
theorem install_again (hok : (i.install o).perform w = (.ok p, w'))
    (hdirs : i.config.toolName.toList.head? ≠ some '/' ∨
      (w'.disk.isDirectory? o.destination = .ok true ∧ w'.disk.isDirectory? i.cacheDir = .ok true))
    (client : Client) (transport? : Option Transport) (token : Option String) (hu : u.disk = w'.disk) :
    ∃ v, (Installer.install { i with client := client, transport? := transport? }
        { o with force := false, token := token }).perform u = (.ok p, v) ∧
      v.traffic = u.traffic ∧ v.disk.Agrees w'.disk := by
  have hdirs' := hdirs.elim (fun htool => install_directories htool hok) id
  obtain ⟨hcheck, v₁, v₂, v₃, v₄, -, -, hplace, -, hw'⟩ := install_ok hok
  obtain ⟨x, l, b, k, m, hplaced⟩ := place_placed hplace
  rw [← hw'] at hplaced
  have hsettled : Settled { i with client := client, transport? := transport? }
      { o with force := false, token := token } p u.disk := by
    rw [hu]
    exact ⟨hdirs'.1, hdirs'.2, x, l, b, k, m,
      ⟨hplaced.above, hplaced.copied, hplaced.binary, hplaced.mode⟩⟩
  obtain ⟨v, hv, htraffic, hagrees⟩ := hsettled.install hcheck rfl
  exact ⟨v, hv, htraffic, hu ▸ hagrees⟩

/-- After a first installation, the same order meets no answer and succeeds. -/
theorem install_again_offline :
    ∃ p w' v, ((ofTool ⟨.here, ["cache"]⟩).install firstOrder).perform
        (.fresh ⟨[], []⟩ firstAnswers) = (.ok p, w') ∧
      ((ofTool ⟨.here, ["cache"]⟩).install firstOrder).perform (.fresh w'.disk []) = (.ok p, v) ∧
      v.exchanges = [] ∧ v.disk.Agrees w'.disk := by
  have hok : (((ofTool ⟨.here, ["cache"]⟩).install firstOrder).perform
      (.fresh ⟨[], []⟩ firstAnswers)).1 = .ok ⟨.here, ["out", "tool"]⟩ := by decide +kernel
  rcases hperform : ((ofTool ⟨.here, ["cache"]⟩).install firstOrder).perform
    (.fresh ⟨[], []⟩ firstAnswers) with ⟨result, w'⟩
  rw [hperform] at hok
  obtain rfl : result = .ok ⟨.here, ["out", "tool"]⟩ := hok
  obtain ⟨v, hv, htraffic, hagrees⟩ := install_again (i := ofTool ⟨.here, ["cache"]⟩)
    (o := firstOrder) hperform (.inl (by decide)) .own none none (u := .fresh w'.disk []) rfl
  exact ⟨_, w', v, rfl, hv, congrArg Traffic.exchanges htraffic, hagrees⟩

/-- An installer of a tool that lies outside its destination. -/
def outside : Installer where
  config := ⟨"/x/tool", "owner/tool", "v1", defaultTrustedHost, "tool", ⟨.here, ["bin"]⟩, none, 5,
    none⟩
  host := ⟨"linux", "x86_64", []⟩
  client := .own
  transport? := none
  cacheDir := ⟨.here, ["cache"]⟩

/-- An order whose destination lies behind the link that its asset will replace. -/
def behindOrder : Order := ⟨"v1", "t1", ⟨.here, ["x", "tool-v1-t1", "out"]⟩, true, none⟩

/-- A disk with that link. -/
def linkedDisk : Disk :=
  ⟨[(["real"], .directory), (["x"], .directory), (["tool-v1-t1", "x"], .link "../real")], []⟩

/-- The description of a release with that asset, and its body. -/
def outsideAnswers : List Answer :=
  [.reply ⟨200, [],
      "\x7b\"assets\": [\x7b\"name\": \"/x/tool-v1-t1\", \"url\": \"https://a.org/x\"\x7d]\x7d", []⟩,
    .reply ⟨200, [], "", [.bytes [1]]⟩]

/-- **A second installation may fail** where the name of the tool starts with a slash: the asset
took the place of a link, and the destination lay behind it. -/
theorem install_again_blocked :
    ((outside.install behindOrder).perform (.fresh linkedDisk outsideAnswers)).1 =
        .ok ⟨.single, ["x", "tool"]⟩ ∧
      ((outside.install { behindOrder with force := false }).perform
        ((outside.install behindOrder).perform (.fresh linkedDisk outsideAnswers)).2).1 =
          .error (failAt behindOrder.destination .notDirectory) := by
  constructor
  · decide +kernel
  · decide +kernel

end Installer

end ReleaseFetch

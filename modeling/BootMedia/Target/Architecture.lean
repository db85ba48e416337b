import BootMedia.Choice

namespace BootMedia

inductive Firmware where
  | flash (code vars : String)
  | bios (image : String)
deriving DecidableEq, Repr

def Firmware.files : Firmware → List String
  | flash code vars => [code, vars]
  | bios image => [image]

inductive Architecture where
  | x86
  | x64
  | aa64
deriving DecidableEq, Repr

namespace Architecture

def name : Architecture → String
  | x86 => "x86"
  | x64 => "x64"
  | aa64 => "aa64"

instance : Choice Architecture where
  kind := "architecture"
  all := [x86, x64, aa64]
  name := name
  complete a := by cases a <;> decide
  name_injective a b := by cases a <;> cases b <;> decide

def emulated : Architecture → String
  | x86 => "i386"
  | x64 => "x86_64"
  | aa64 => "aarch64"

def compiled : Architecture → String
  | x86 => "i686"
  | x64 => "x86_64"
  | aa64 => "aarch64"

def bootFile : Architecture → String
  | x86 => "BOOT.EFI"
  | x64 => "BOOTX64.EFI"
  | aa64 => "BOOTAA64.EFI"

def firmware : Architecture → Firmware
  | x86 => .flash "edk2-i386-code.fd" "edk2-i386-vars.fd"
  | x64 => .flash "OVMF_CODE-pure-efi.fd" "OVMF_VARS-pure-efi.fd"
  | aa64 => .bios "QEMU_EFI_aarch64.fd"

def machineFlags : Architecture → List String
  | x86 | x64 => ["-vga", "std", "-machine", "pc-q35-2.10,accel=tcg", "-cpu", "max"]
  | aa64 => ["-machine", "virt", "-cpu", "cortex-a76"]

/-- The channel on which a guest reports how it ended: a device where there is one to write to, a
call into the emulator otherwise. -/
def exitFlags : Architecture → List String
  | x86 | x64 => ["-device", "isa-debug-exit,iobase=0xf4,iosize=0x04"]
  | aa64 => ["-semihosting"]

theorem bootFile_injective {a b : Architecture} (h : a.bootFile = b.bootFile) : a = b := by
  revert h
  cases a <;> cases b <;> decide

end Architecture

end BootMedia

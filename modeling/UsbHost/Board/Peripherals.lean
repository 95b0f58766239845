/-!
# Boards

Where the peripherals of the supported boards lie in physical memory.
-/

namespace UsbHost

/-- The addresses of a board's peripherals. -/
structure Board where
  name : String
  peripherals : Nat
  usb : Nat
  mailbox : Nat
  systemTimer : Nat
deriving DecidableEq

namespace Board

/-- A board of the Broadcom family, whose peripherals keep their distances. -/
def broadcom (name : String) (peripherals : Nat) : Board where
  name
  peripherals
  usb := peripherals + 0x980000
  mailbox := peripherals + 0xB880
  systemTimer := peripherals + 0x3000

/-- Raspberry Pi Zero 2 W and Raspberry Pi 3. -/
def rpi3 : Board := broadcom "Raspberry Pi Zero 2 W" 0x3F000000

/-- Raspberry Pi 4 in its low peripheral mode. -/
def rpi4 : Board := broadcom "Raspberry Pi 4" 0xFE000000

/-- The board that is meant unless another is chosen. -/
def current : Board := rpi3

end Board

end UsbHost

import Mcxn947.UsbBridge

/-!
# Bulk lengths across the bridge

A bulk header splits its length over two halves.
-/

namespace Mcxn947.Usbdev

open MachineWords Function Nat

def asked (rc : Xfer) : Backend (List (Fin 16 × ℕ)) where
  setup be _ := ⟨be, [], .async⟩
  epIn be ep len := ⟨be ++ [(ep, len)], [], rc⟩
  epOut be _ _ := ⟨be, [], rc⟩
  busReset be := ⟨be, [], .async⟩

section Request

variable {dev : UsbDevState} {id : ℕ} {endpoint : Byte} {length lengthHigh : HalfWord}
  {data : List Byte}

section

variable (hbe : dev.beOps = true)
include hbe

end

end Request

end Mcxn947.Usbdev

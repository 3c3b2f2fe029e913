import QemuIos.ItBoot.Proofs.Tries
import QemuIos.Baseband.Proofs.Gsm7
import QemuIos.Baseband.Proofs.Stream
import QemuIos.Baseband.Proofs.Timers
import QemuIos.Baseband.Proofs.Ifx
import QemuIos.Baseband.Proofs.Restored
import QemuIos.Iop.Proofs.Publish
import QemuIos.Fmc.Proofs.Store
import QemuIos.Fmc.Proofs.Lists
import QemuIos.Usb.Proofs.Framing
import QemuIos.Usb.Proofs.OutTransfer
import QemuIos.Cdma.Proofs.Cancel
import QemuIos.Cdma.Proofs.Segments
import QemuIos.Vic.Proofs.Vector
import QemuIos.Guest.Proofs.Copy
import QemuIos.Guest.Proofs.Pasteboard
import QemuIos.Agent.Proofs.Completion
import QemuIos.Gles.Proofs.Draws
import QemuIos.Fmss.Proofs.Packed
import QemuIos.Fmss.Proofs.Layout
import QemuIos.Fmss.Proofs.Recall
import QemuIos.Fmss.Proofs.Reads
import QemuIos.Baseband.Proofs.LinkControl
import QemuIos.Baseband.Proofs.AbsentSim
import QemuIos.ItBoot.Proofs.RoundTrip
import QemuIos.Spi.Proofs.Queues
import QemuIos.Baseband.Proofs.RawIp
import QemuIos.Baseband.Proofs.Operator
import QemuIos.Iop.Proofs.Multi
import QemuIos.Sdio.Transmit
import QemuIos.Sysic.Gpio

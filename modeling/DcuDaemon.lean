import DcuDaemon.Spinel.PackedNumber
import DcuDaemon.Instance.TunReplay
import DcuDaemon.Firewall.Flows
import DcuDaemon.Instance.UserEntries
import DcuDaemon.Instance.Snapshots
import DcuDaemon.Instance.Pcap
import DcuDaemon.Instance.NetworkIds
import DcuDaemon.Instance.DatasetMirror
import DcuDaemon.Wfantund.DatasetParity
import DcuDaemon.Mt.FragProtocol
import DcuDaemon.Tun.MatcherParity
import DcuDaemon.Mt.Safety
import DcuDaemon.Wfantund.ChannelList
import DcuDaemon.Wfantund.AnyTo
import DcuDaemon.Wfantund.ConfigParity
import DcuDaemon.Spinel.Crc
import DcuDaemon.Serial.Recovery
import DcuDaemon.Serial.Retention
import DcuDaemon.Spinel.PackFormatParse
import DcuDaemon.Wfantund.MacFilterValue
import DcuDaemon.Gateway.IniText
import DcuDaemon.Tasks.Peek
import DcuDaemon.Tasks.Commands
import DcuDaemon.Wfantund.Link
import DcuDaemon.Tasks.Topology
import DcuDaemon.Tasks.ScanTask
import DcuDaemon.Wfantund.StreamNet
import DcuDaemon.Gateway.Fifo
import DcuDaemon.Wfantund.NodeTotals
import DcuDaemon.Instance.StatCollector
import DcuDaemon.Util.Timer
import DcuDaemon.Gateway.TimerCb
import DcuDaemon.Wfantund.SharedPrefixes
import DcuDaemon.Wfantund.ResetBackoff
import DcuDaemon.Wfantund.ValueConverters
import DcuDaemon.Spinel.Iter
import DcuDaemon.Firewall.StateChange
